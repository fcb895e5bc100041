import Ferry.Machine.Step
import Ferry.Proofs.Except

/-!
# What one step of a machine can do

An instruction of an activation keeps its function and the number of its local slots; it leaves the
program counter where it is, past the instruction, unless it jumps, and a terminator never leaves it
there. A step of a machine changes the running activation only, enters a call, or leaves one. The
lemmas here list these cases, and later proofs cite them in place of the definitions.
-/

namespace Ferry

namespace Activation

/-- Where an instruction leads inside its activation, whose program counter is already past it. -/
inductive Executed (activation : Activation) (instruction : Instruction) :
    Effect → Activation → Prop where
  /-- Control goes on inside the function. -/
  | proceed {after : Activation} (function_eq : after.function = activation.function)
      (length_eq : after.locals.length = activation.locals.length)
      (pc_eq : (after.pc = activation.pc ∧ instruction.isTerminator = false) ∨
        ∃ target, instruction.jumpTarget? = some target ∧ after.pc = target.toNat) :
      Executed activation instruction .proceed after
  /-- A call leaves the activation as it is. -/
  | call {callee : UInt32} (is_call : instruction = .call callee) :
      Executed activation instruction (.call callee) activation
  /-- A return leaves the activation as it is. -/
  | ret (is_ret : instruction = .ret) : Executed activation instruction .ret activation

theorem pop_eq_ok_iff {activation rest : Activation} {value : Word} :
    activation.pop = .ok (value, rest) ↔
      activation.operands = value :: rest.operands ∧
        rest = { activation with operands := rest.operands } := by
  rcases activation with ⟨function, pc, locals, operands⟩
  rcases rest with ⟨function', pc', locals', operands'⟩
  cases operands with
  | nil => simp [pop]
  | cons first others =>
      simp only [pop, Except.ok.injEq, Prod.mk.injEq, Activation.mk.injEq, List.cons.injEq,
        and_true]
      constructor
      · rintro ⟨rfl, rfl, rfl, rfl, rfl⟩
        simp
      · rintro ⟨⟨rfl, rfl⟩, rfl, rfl, rfl⟩
        simp

theorem popMany_eq_ok_iff {activation rest : Activation} {count : Nat} {values : List Word} :
    activation.popMany count = .ok (values, rest) ↔
      count ≤ activation.operands.length ∧
        values = (activation.operands.take count).reverse ∧
        rest = { activation with operands := activation.operands.drop count } := by
  by_cases short : activation.operands.length < count
  · simp [popMany, short, Nat.not_le.mpr short]
  · simp [popMany, short, Nat.not_lt.mp short, eq_comm]

theorem setLocal_eq_ok_iff {activation stored : Activation} {slot : UInt32} {value : Word} :
    activation.setLocal slot value = .ok stored ↔
      slot.toNat < activation.locals.length ∧
        stored = { activation with locals := activation.locals.set slot.toNat value } := by
  by_cases inside : slot.toNat < activation.locals.length
  · simp [setLocal, inside, eq_comm]
  · simp [setLocal, inside]

@[simp]
theorem push_function (activation : Activation) (value : Word) :
    (activation.push value).function = activation.function :=
  rfl

@[simp]
theorem push_locals (activation : Activation) (value : Word) :
    (activation.push value).locals = activation.locals :=
  rfl

@[simp]
theorem push_pc (activation : Activation) (value : Word) :
    (activation.push value).pc = activation.pc :=
  rfl

private theorem executed_of_goTo {activation rest : Activation} {instruction : Instruction}
    {target : UInt32} {jumps : Prop} [Decidable jumps]
    (sameFunction : rest.function = activation.function)
    (sameLocals : rest.locals = activation.locals) (samePc : rest.pc = activation.pc)
    (named : instruction.jumpTarget? = some target)
    (falls : instruction.isTerminator = false) :
    Executed activation instruction .proceed (if jumps then rest.goTo target else rest) := by
  by_cases jump : jumps
  · rw [if_pos jump]
    exact .proceed sameFunction (congrArg List.length sameLocals) (.inr ⟨target, named, rfl⟩)
  · rw [if_neg jump]
    exact .proceed sameFunction (congrArg List.length sameLocals) (.inl ⟨samePc, falls⟩)

/-- An instruction that does not trap leads to one of the three cases. -/
theorem executed_of_execute {activation after : Activation} {instruction : Instruction}
    {effect : Effect} (run : activation.execute instruction = .ok (effect, after)) :
    Executed activation instruction effect after := by
  cases instruction with
  | nop =>
      cases run
      exact .proceed rfl rfl (.inl ⟨rfl, rfl⟩)
  | unreachable => cases run
  | const value =>
      cases run
      exact .proceed rfl rfl (.inl ⟨rfl, rfl⟩)
  | localGet slot =>
      rw [execute, bind_eq_ok_iff] at run
      rcases run with ⟨value, -, run⟩
      cases run
      exact .proceed rfl rfl (.inl ⟨rfl, rfl⟩)
  | localSet slot =>
      rw [execute, bind_eq_ok_iff] at run
      rcases run with ⟨⟨value, rest⟩, popped, run⟩
      obtain ⟨stored, isStored, run⟩ := bind_eq_ok_iff.mp run
      cases run
      rw [(setLocal_eq_ok_iff.mp isStored).2, (pop_eq_ok_iff.mp popped).2]
      exact .proceed rfl (List.length_set ..) (.inl ⟨rfl, rfl⟩)
  | localTee slot =>
      rw [execute, bind_eq_ok_iff] at run
      rcases run with ⟨⟨value, rest⟩, -, run⟩
      obtain ⟨stored, isStored, run⟩ := bind_eq_ok_iff.mp run
      cases run
      rw [(setLocal_eq_ok_iff.mp isStored).2]
      exact .proceed rfl (List.length_set ..) (.inl ⟨rfl, rfl⟩)
  | drop =>
      rw [execute, bind_eq_ok_iff] at run
      rcases run with ⟨⟨value, rest⟩, popped, run⟩
      cases run
      rw [(pop_eq_ok_iff.mp popped).2]
      exact .proceed rfl rfl (.inl ⟨rfl, rfl⟩)
  | binary op =>
      rw [execute, bind_eq_ok_iff] at run
      rcases run with ⟨⟨right, rest⟩, popped, run⟩
      obtain ⟨⟨left, others⟩, poppedLeft, run⟩ := bind_eq_ok_iff.mp run
      obtain ⟨value, -, run⟩ := bind_eq_ok_iff.mp run
      cases run
      rw [(pop_eq_ok_iff.mp poppedLeft).2, (pop_eq_ok_iff.mp popped).2]
      exact .proceed rfl rfl (.inl ⟨rfl, rfl⟩)
  | isZero =>
      rw [execute, bind_eq_ok_iff] at run
      rcases run with ⟨⟨value, rest⟩, popped, run⟩
      cases run
      rw [(pop_eq_ok_iff.mp popped).2]
      exact .proceed rfl rfl (.inl ⟨rfl, rfl⟩)
  | jump target =>
      cases run
      exact .proceed rfl rfl (.inr ⟨target, rfl, rfl⟩)
  | jumpIf target =>
      rw [execute, bind_eq_ok_iff] at run
      rcases run with ⟨⟨value, rest⟩, popped, run⟩
      cases run
      rw [(pop_eq_ok_iff.mp popped).2, ← ite_not]
      exact executed_of_goTo rfl rfl rfl rfl rfl
  | jumpIfNot target =>
      rw [execute, bind_eq_ok_iff] at run
      rcases run with ⟨⟨value, rest⟩, popped, run⟩
      cases run
      rw [(pop_eq_ok_iff.mp popped).2]
      exact executed_of_goTo rfl rfl rfl rfl rfl
  | call callee =>
      cases run
      exact .call rfl
  | ret =>
      cases run
      exact .ret rfl

end Activation

namespace Machine

/-- Where an instruction that does not trap leads a machine. -/
inductive Advanced (module : Module) (limit : Nat) (machine : Machine) (instruction : Instruction) :
    Machine ⊕ List Word → Prop where
  /-- The running activation goes on. -/
  | proceed {top : Activation}
      (executed : machine.top.next.Executed instruction .proceed top) :
      Advanced module limit machine instruction (.inl { machine with top := top })
  /-- A call begins, and the caller gives up its arguments. -/
  | call {callee : UInt32} {function : Function} (is_call : instruction = .call callee)
      (room : machine.depth < limit) (found : module.function? callee = some function)
      (enough : function.params.toNat ≤ machine.top.operands.length) :
      Advanced module limit machine instruction (.inl
        { machine with
          top := .enter callee function
            (machine.top.operands.take function.params.toNat).reverse
          callers :=
            { machine.top.next with
              operands := machine.top.operands.drop function.params.toNat } :: machine.callers })
  /-- A call ends, and the caller takes over the results. -/
  | ret {function : Function} {caller : Activation} {callers : List Activation}
      (is_ret : instruction = .ret)
      (found : module.function? machine.top.function = some function)
      (enough : function.results.toNat ≤ machine.top.operands.length)
      (waits : machine.callers = caller :: callers) :
      Advanced module limit machine instruction (.inl
        { machine with
          top := caller.pushMany (machine.top.operands.take function.results.toNat).reverse
          callers := callers })
  /-- The function that was called first returns. -/
  | halt {function : Function} (is_ret : instruction = .ret)
      (found : module.function? machine.top.function = some function)
      (enough : function.results.toNat ≤ machine.top.operands.length)
      (alone : machine.callers = []) :
      Advanced module limit machine instruction
        (.inr (machine.top.operands.take function.results.toNat).reverse)

theorem fetch_eq_ok_iff {module : Module} {machine : Machine} {instruction : Instruction} :
    machine.fetch module = .ok instruction ↔
      ∃ function, module.function? machine.top.function = some function ∧
        function.code[machine.top.pc]? = some instruction := by
  cases found : module.function? machine.top.function with
  | none => simp [fetch, found]
  | some function =>
      cases at_pc : function.code[machine.top.pc]? with
      | none => simp [fetch, found, at_pc]
      | some other => simp [fetch, found, at_pc]

private theorem advanced_of_enterCall {module : Module} {limit : Nat} {machine next : Machine}
    {callee : UInt32}
    (entered : ({ machine with top := machine.top.next } : Machine).enterCall module limit callee =
      .ok next) :
    Advanced module limit machine (.call callee) (.inl next) := by
  rw [enterCall] at entered
  split at entered
  · contradiction
  · rename_i room
    split at entered
    · contradiction
    · rename_i function found
      obtain ⟨⟨arguments, caller⟩, popped, entered⟩ := bind_eq_ok_iff.mp entered
      rcases Activation.popMany_eq_ok_iff.mp popped with ⟨enough, rfl, rfl⟩
      cases entered
      exact .call rfl (Nat.not_le.mp room) found enough

private theorem advanced_of_leaveCall {module : Module} {limit : Nat} {machine : Machine}
    {result : Machine ⊕ List Word}
    (left : ({ machine with top := machine.top.next } : Machine).leaveCall module = .ok result) :
    Advanced module limit machine .ret result := by
  rw [leaveCall] at left
  split at left
  · contradiction
  · rename_i function found
    obtain ⟨⟨values, rest⟩, popped, left⟩ := bind_eq_ok_iff.mp left
    rcases Activation.popMany_eq_ok_iff.mp popped with ⟨enough, rfl, -⟩
    cases waits : machine.callers with
    | nil =>
        simp only [waits] at left
        cases left
        exact .halt rfl found enough waits
    | cons caller callers =>
        simp only [waits] at left
        cases left
        exact .ret rfl found enough waits

/-- A step that does not trap runs the instruction at the program counter, in one of four ways. -/
theorem advanced_of_advance {module : Module} {limit : Nat} {machine : Machine}
    {result : Machine ⊕ List Word} (run : machine.advance module limit = .ok result) :
    ∃ function instruction, module.function? machine.top.function = some function ∧
      function.code[machine.top.pc]? = some instruction ∧
      Advanced module limit machine instruction result := by
  obtain ⟨instruction, fetched, run⟩ := bind_eq_ok_iff.mp run
  obtain ⟨⟨effect, top⟩, ran, run⟩ := bind_eq_ok_iff.mp run
  rcases fetch_eq_ok_iff.mp fetched with ⟨function, found, at_pc⟩
  refine ⟨function, instruction, found, at_pc, ?_⟩
  have executed := Activation.executed_of_execute ran
  cases effect with
  | proceed =>
      cases run
      exact .proceed executed
  | call callee =>
      obtain ⟨next, entered, run⟩ := bind_eq_ok_iff.mp run
      cases run
      cases executed with
      | call is_call =>
          subst is_call
          exact advanced_of_enterCall entered
  | ret =>
      cases executed with
      | ret is_ret =>
          subst is_ret
          exact advanced_of_leaveCall run

/-- A step leads to a machine of the same computation. -/
theorem Advanced.entry_eq {module : Module} {limit : Nat} {machine next : Machine}
    {instruction : Instruction} (advanced : Advanced module limit machine instruction (.inl next)) :
    next.entry = machine.entry := by
  cases advanced <;> rfl

end Machine

end Ferry
