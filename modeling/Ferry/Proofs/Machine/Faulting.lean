import Ferry.Proofs.Machine.Trapping

/-!
# Which instruction raises which trap

A machine that fits its module traps exactly in five situations, and each belongs to certain
instructions: the program says so, a quotient does not exist or does not fit, a call finds no room,
or the running activation holds fewer operands than the instruction needs. A call looks for room
before it looks at its arguments, so the last two never compete. The trap is reported for the offset
of the instruction itself, although the program counter has moved on by then.
-/

namespace Ferry

namespace Instruction

/-- The number of operands that an instruction needs in a function of a module. A call needs the
parameters of the function it calls, a return the results of the function it leaves. -/
def needs (module : Module) (function : Function) : Instruction → Nat
  | .call callee => ((module.function? callee).map fun called => called.params.toNat).getD 0
  | .ret => function.results.toNat
  | instruction => instruction.arity

theorem needs_call {module : Module} {function called : Function} {callee : UInt32}
    (found : module.function? callee = some called) :
    (Instruction.call callee).needs module function = called.params.toNat := by
  change ((module.function? callee).map fun called => called.params.toNat).getD 0 = _
  rw [found]
  rfl

/-- An instruction that takes operands of its own activation is neither a call nor a return. -/
theorem needs_of_arity_pos {module : Module} {function : Function} {instruction : Instruction}
    (takes : 0 < instruction.arity) :
    instruction.needs module function = instruction.arity ∧
      ∀ callee, instruction ≠ .call callee := by
  cases instruction with
  | call callee => exact absurd takes (Nat.lt_irrefl 0)
  | ret => exact absurd takes (Nat.lt_irrefl 0)
  | nop | unreachable | const _ | localGet _ | localSet _ | localTee _ | drop | binary _ | isZero
  | jump _ | jumpIf _ | jumpIfNot _ => exact ⟨rfl, nofun⟩

end Instruction

theorem BinaryOp.apply_zero {op : BinaryOp} (divides : op.divides = true) (left : Word) :
    op.apply left 0 = .error .divisionByZero := by
  cases op with
  | add | sub | mul | eq | ne | lt | le | gt | ge => cases divides
  | div | rem => simp [apply]

theorem BinaryOp.apply_least {op : BinaryOp} (divides : op.divides = true) :
    op.apply Int64.minValue (-1) = .error .integerOverflow := by
  cases op with
  | add | sub | mul | eq | ne | lt | le | gt | ge => cases divides
  | div | rem => rfl

namespace Activation

theorem pop_of_empty {activation : Activation} (empty : activation.operands = []) :
    activation.pop = .error .stackUnderflow := by
  rw [pop, empty]

theorem pop_of_cons {activation : Activation} {value : Word} {rest : List Word}
    (operands : activation.operands = value :: rest) :
    activation.pop = .ok (value, { activation with operands := rest }) := by
  rw [pop, operands]

theorem popMany_of_few {activation : Activation} {count : Nat}
    (few : activation.operands.length < count) :
    activation.popMany count = .error .stackUnderflow :=
  if_pos few

/-- An instruction that finds fewer operands than it takes does nothing else. -/
theorem execute_of_few {activation : Activation} {instruction : Instruction}
    (few : activation.operands.length < instruction.arity) :
    activation.execute instruction = .error .stackUnderflow := by
  cases instruction with
  | nop | unreachable | const _ | localGet _ | jump _ | call _ | ret =>
      exact absurd few (Nat.not_lt_zero _)
  | localSet _ | localTee _ | drop | isZero | jumpIf _ | jumpIfNot _ =>
      have empty : activation.operands = [] := List.length_eq_zero_iff.mp (Nat.lt_one_iff.mp few)
      rw [execute, pop_of_empty empty]
      rfl
  | binary op =>
      cases operands : activation.operands with
      | nil =>
          rw [execute, pop_of_empty operands]
          rfl
      | cons right rest =>
          rw [operands] at few
          have none_left : rest.length < 1 := Nat.lt_of_succ_lt_succ few
          have empty : rest = [] := List.length_eq_zero_iff.mp (Nat.lt_one_iff.mp none_left)
          have popped : ({ activation with operands := rest } : Activation).pop =
              .error .stackUnderflow := pop_of_empty empty
          rw [execute, pop_of_cons operands]
          change ({ activation with operands := rest } : Activation).pop >>= _ = _
          rw [popped]
          rfl

/-- An operation fails if its result does. -/
theorem execute_binary_of_error {activation : Activation} {op : BinaryOp} {left right : Word}
    {rest : List Word} {trap : Trap} (operands : activation.operands = right :: left :: rest)
    (failed : op.apply left right = .error trap) :
    activation.execute (.binary op) = .error trap := by
  rw [execute, pop_of_cons operands]
  change op.apply left right >>= _ = _
  rw [failed]
  rfl

end Activation

namespace Machine

/-- The instruction that a machine runs next, and the function in whose body it stands. -/
structure Fetches (module : Module) (machine : Machine) (function : Function)
    (instruction : Instruction) : Prop where
  found : module.function? machine.top.function = some function
  inside : machine.top.pc < function.code.size
  at_pc : function.code[machine.top.pc]? = some instruction

/-- The situations in which an instruction traps, and the trap that it raises. -/
inductive Raises (module : Module) (limit : Nat) (machine : Machine) (function : Function) :
    Instruction → Trap → Prop where
  /-- The program says so. -/
  | unreachable : Raises module limit machine function .unreachable .unreachable
  /-- A quotient or a remainder by zero. -/
  | divisionByZero {op : BinaryOp} {left : Word} {rest : List Word} (divides : op.divides = true)
      (operands : machine.top.operands = 0 :: left :: rest) :
      Raises module limit machine function (.binary op) .divisionByZero
  /-- A quotient or a remainder of the least word by minus one. -/
  | integerOverflow {op : BinaryOp} {rest : List Word} (divides : op.divides = true)
      (operands : machine.top.operands = -1 :: Int64.minValue :: rest) :
      Raises module limit machine function (.binary op) .integerOverflow
  /-- A call while there are as many activations as the limit allows. -/
  | callDepthExceeded {callee : UInt32} (full : limit ≤ machine.depth) :
      Raises module limit machine function (.call callee) (.callDepthExceeded limit)
  /-- Fewer operands than the instruction needs. -/
  | stackUnderflow {instruction : Instruction}
      (few : machine.top.operands.length < instruction.needs module function)
      (room : ∀ callee, instruction = .call callee → machine.depth < limit) :
      Raises module limit machine function instruction .stackUnderflow

variable {module : Module} {limit : Nat} {machine : Machine} {function : Function}
  {instruction : Instruction} {trap : Trap}

theorem Fetches.fetch_eq (fetches : machine.Fetches module function instruction) :
    machine.fetch module = .ok instruction :=
  fetch_eq_ok_iff.mpr ⟨function, fetches.found, fetches.at_pc⟩

theorem fetches_of_getElem? (found : module.function? machine.top.function = some function)
    (at_pc : function.code[machine.top.pc]? = some instruction) :
    machine.Fetches module function instruction :=
  ⟨found, (Array.getElem?_eq_some_iff.mp at_pc).1, at_pc⟩

theorem fetches_of_fetch (fetched : machine.fetch module = .ok instruction) :
    ∃ function, machine.Fetches module function instruction := by
  rcases fetch_eq_ok_iff.mp fetched with ⟨function, found, at_pc⟩
  exact ⟨function, fetches_of_getElem? found at_pc⟩

/-- An instruction that traps inside the running activation traps in the machine. -/
theorem advance_of_execute_error (fetched : machine.fetch module = .ok instruction)
    (failed : machine.top.next.execute instruction = .error trap) :
    machine.advance module limit = .error trap := by
  rw [advance, fetched]
  change machine.top.next.execute instruction >>= _ = _
  rw [failed]
  rfl

/-- A call that cannot enter its function traps. -/
theorem advance_of_enterCall_error {callee : UInt32}
    (fetched : machine.fetch module = .ok (.call callee))
    (failed : ({ machine with top := machine.top.next } : Machine).enterCall module limit callee =
      .error trap) : machine.advance module limit = .error trap := by
  rw [advance, fetched]
  change ({ machine with top := machine.top.next } : Machine).enterCall module limit callee >>= _ =
    _
  rw [failed]
  rfl

private theorem enterCall_of_few {callee : UInt32} {called : Function}
    (room : machine.depth < limit) (found : module.function? callee = some called)
    (few : machine.top.operands.length < called.params.toNat) :
    ({ machine with top := machine.top.next } : Machine).enterCall module limit callee =
      .error .stackUnderflow := by
  have popped : machine.top.next.popMany called.params.toNat = .error .stackUnderflow :=
    Activation.popMany_of_few few
  have notFull : ¬ limit ≤ ({ machine with top := machine.top.next } : Machine).depth :=
    Nat.not_le.mpr room
  rw [enterCall, if_neg notFull, found]
  change machine.top.next.popMany called.params.toNat >>= _ = _
  rw [popped]
  rfl

private theorem advance_ret_of_few (fetches : machine.Fetches module function .ret)
    (few : machine.top.operands.length < function.results.toNat) :
    machine.advance module limit = .error .stackUnderflow := by
  have popped : machine.top.next.popMany function.results.toNat = .error .stackUnderflow :=
    Activation.popMany_of_few few
  rw [advance, fetches.fetch_eq]
  change ({ machine with top := machine.top.next } : Machine).leaveCall module = _
  have found : module.function? machine.top.next.function = some function := fetches.found
  rw [leaveCall, found]
  change machine.top.next.popMany function.results.toNat >>= _ = _
  rw [popped]
  rfl

/-- In each of the situations the instruction traps. -/
theorem Raises.advance_eq (raises : machine.Raises module limit function instruction trap)
    (fetches : machine.Fetches module function instruction) :
    machine.advance module limit = .error trap := by
  have fetched := fetches.fetch_eq
  cases raises with
  | unreachable => exact advance_of_execute_error fetched rfl
  | divisionByZero divides operands =>
      apply advance_of_execute_error fetched
      exact Activation.execute_binary_of_error operands (BinaryOp.apply_zero divides _)
  | integerOverflow divides operands =>
      apply advance_of_execute_error fetched
      exact Activation.execute_binary_of_error operands (BinaryOp.apply_least divides)
  | callDepthExceeded full =>
      apply advance_of_enterCall_error fetched
      exact if_pos full
  | stackUnderflow few room =>
      cases instruction with
      | call callee =>
          rcases exists_callee fetched with ⟨called, found⟩
          rw [Instruction.needs_call found] at few
          exact advance_of_enterCall_error fetched (enterCall_of_few (room callee rfl) found few)
      | ret => exact advance_ret_of_few fetches few
      | nop | unreachable | const _ | localGet _ | localSet _ | localTee _ | drop | binary _
      | isZero | jump _ | jumpIf _ | jumpIfNot _ =>
          exact advance_of_execute_error fetched (Activation.execute_of_few few)

/-- An instruction that finds fewer operands than it needs traps, if not for this then for the depth
of a call. -/
theorem exists_raises_of_few
    (few : machine.top.operands.length < instruction.needs module function) :
    ∃ trap, machine.Raises module limit function instruction trap := by
  by_cases full : limit ≤ machine.depth
  · cases instruction with
    | call callee => exact ⟨_, .callDepthExceeded full⟩
    | ret | nop | unreachable | const _ | localGet _ | localSet _ | localTee _ | drop | binary _
    | isZero | jump _ | jumpIf _ | jumpIfNot _ => exact ⟨_, .stackUnderflow few nofun⟩
  · exact ⟨_, .stackUnderflow few fun _ _ => Nat.not_le.mp full⟩

/-- A machine that fits its module traps in these situations only. -/
theorem FitsIn.raises (fits : machine.FitsIn module)
    (failed : machine.advance module limit = .error trap) :
    ∃ function instruction, machine.Fetches module function instruction ∧
      machine.Raises module limit function instruction trap := by
  rcases fits.fetch_ok with ⟨instruction, fetched, slots⟩
  rcases fetches_of_fetch fetched with ⟨function, fetches⟩
  refine ⟨function, instruction, fetches, ?_⟩
  rcases trapped_of_advance failed with notFetched | ⟨other, fetched', trapped⟩
  · rw [fetched] at notFetched
    cases notFetched
  rw [fetched] at fetched'
  cases fetched'
  cases trapped with
  | inside trapped =>
      cases trapped with
      | unreachable => exact .unreachable
      | stackUnderflow few =>
          have takes : 0 < instruction.arity := Nat.lt_of_le_of_lt (Nat.zero_le _) few
          rcases Instruction.needs_of_arity_pos takes with ⟨needs_eq, not_call⟩
          refine .stackUnderflow ?_ fun callee is_call => absurd is_call (not_call callee)
          rw [needs_eq]
          exact few
      | divisionByZero divides operands => exact .divisionByZero divides operands
      | integerOverflow divides operands => exact .integerOverflow divides operands
      | noSuchLocal named outside => exact absurd (slots _ named) (Nat.not_lt.mpr outside)
  | tooDeep is_call full =>
      subst is_call
      exact .callDepthExceeded full
  | noCallee is_call missing =>
      subst is_call
      rcases exists_callee fetched with ⟨called, found⟩
      rw [found] at missing
      cases missing
  | @fewArguments callee called is_call found few =>
      subst is_call
      refine .stackUnderflow ?_ ?_
      · rw [Instruction.needs_call found]
        exact few
      · rintro _ -
        apply Nat.not_le.mp
        intro full
        -- A call looks for room first, so it would have trapped for its depth.
        rw [(Raises.callDepthExceeded full).advance_eq fetches] at failed
        cases failed
  | fewResults is_ret found few =>
      subst is_ret
      obtain rfl := Option.some.inj (fetches.found.symm.trans found)
      exact .stackUnderflow few nofun

/-- A machine that fits its module traps exactly if its next instruction is in one of the
situations, and the trap is reported for this instruction. -/
theorem FitsIn.step_eq_trapped_iff (fits : machine.FitsIn module) {site : Site} :
    machine.step module limit = .trapped trap site ↔
      site = machine.site ∧ ∃ function instruction, machine.Fetches module function instruction ∧
        machine.Raises module limit function instruction trap := by
  rw [Machine.step_eq_trapped_iff]
  constructor
  · rintro ⟨failed, same⟩
    exact ⟨same, fits.raises failed⟩
  · rintro ⟨same, function, instruction, fetches, raises⟩
    exact ⟨raises.advance_eq fetches, same⟩

end Machine

end Ferry
