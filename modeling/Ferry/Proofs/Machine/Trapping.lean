import Ferry.Proofs.Machine.Shape

/-!
# Why a machine traps

The lemmas here list what makes an instruction trap, inside its activation and in a machine. Most of
the list is about things that the instruction names and that do not exist. In a machine that fits its
module everything exists, and the traps that are left are the ordinary ones: the program says so, an
operation has no result or no operands, or there is no room for another call.
-/

namespace Ferry

/-- The traps that no judgement of a module or of a snapshot excludes, under a limit on live
activations. -/
inductive Trap.Ordinary (limit : Nat) : Trap → Prop where
  | unreachable : Ordinary limit .unreachable
  | divisionByZero : Ordinary limit .divisionByZero
  | integerOverflow : Ordinary limit .integerOverflow
  | stackUnderflow : Ordinary limit .stackUnderflow
  | callDepthExceeded : Ordinary limit (.callDepthExceeded limit)

/-- The number of operands that an instruction takes from its own activation. What a call and a
return take depends on the function. -/
def Instruction.arity : Instruction → Nat
  | .localSet _ | .localTee _ | .drop | .isZero | .jumpIf _ | .jumpIfNot _ => 1
  | .binary _ => 2
  | .nop | .unreachable | .const _ | .localGet _ | .jump _ | .call _ | .ret => 0

/-- Whether an operation gives a quotient or a remainder. -/
def BinaryOp.divides : BinaryOp → Bool
  | div | rem => true
  | _ => false

theorem BinaryOp.apply_eq_error {op : BinaryOp} {left right : Word} {trap : Trap}
    (failed : op.apply left right = .error trap) :
    op.divides = true ∧ (right = 0 ∧ trap = .divisionByZero ∨
      (left = Int64.minValue ∧ right = -1) ∧ trap = .integerOverflow) := by
  cases op with
  | add | sub | mul | eq | ne | lt | le | gt | ge => cases failed
  | div | rem =>
      simp only [apply] at failed
      split at failed
      · rename_i zero
        cases failed
        exact ⟨rfl, .inl ⟨zero, rfl⟩⟩
      · split at failed
        · rename_i least
          cases failed
          exact ⟨rfl, .inr ⟨least, rfl⟩⟩
        · cases failed

namespace Activation

/-- Why an instruction traps inside its activation. -/
inductive Trapped (activation : Activation) : Instruction → Trap → Prop where
  /-- The program says so. -/
  | unreachable : Trapped activation .unreachable .unreachable
  /-- There are fewer operands than the instruction takes. -/
  | stackUnderflow {instruction : Instruction}
      (few : activation.operands.length < instruction.arity) :
      Trapped activation instruction .stackUnderflow
  | divisionByZero {op : BinaryOp} {left : Word} {rest : List Word} (divides : op.divides = true)
      (operands : activation.operands = 0 :: left :: rest) :
      Trapped activation (.binary op) .divisionByZero
  | integerOverflow {op : BinaryOp} {rest : List Word} (divides : op.divides = true)
      (operands : activation.operands = -1 :: Int64.minValue :: rest) :
      Trapped activation (.binary op) .integerOverflow
  /-- The activation does not have the slot that the instruction names. -/
  | noSuchLocal {instruction : Instruction} {slot : UInt32}
      (named : instruction.localSlot? = some slot)
      (outside : activation.locals.length ≤ slot.toNat) :
      Trapped activation instruction (.noSuchLocal slot)

theorem pop_eq_error {activation : Activation} {trap : Trap}
    (failed : activation.pop = .error trap) :
    activation.operands = [] ∧ trap = .stackUnderflow := by
  rw [pop] at failed
  split at failed
  · rename_i empty
    cases failed
    exact ⟨empty, rfl⟩
  · cases failed

theorem popMany_eq_error {activation : Activation} {count : Nat} {trap : Trap}
    (failed : activation.popMany count = .error trap) :
    activation.operands.length < count ∧ trap = .stackUnderflow := by
  rw [popMany] at failed
  split at failed
  · rename_i few
    cases failed
    exact ⟨few, rfl⟩
  · cases failed

theorem local?_eq_error {activation : Activation} {slot : UInt32} {trap : Trap}
    (failed : activation.local? slot = .error trap) :
    activation.locals.length ≤ slot.toNat ∧ trap = .noSuchLocal slot := by
  rw [local?] at failed
  split at failed
  · cases failed
  · rename_i missing
    cases failed
    exact ⟨List.getElem?_eq_none_iff.mp missing, rfl⟩

theorem setLocal_eq_error {activation : Activation} {slot : UInt32} {value : Word} {trap : Trap}
    (failed : activation.setLocal slot value = .error trap) :
    activation.locals.length ≤ slot.toNat ∧ trap = .noSuchLocal slot := by
  rw [setLocal] at failed
  split at failed
  · cases failed
  · rename_i outside
    cases failed
    exact ⟨Nat.not_lt.mp outside, rfl⟩

/-- An instruction that takes one operand traps if there is none, or for what it does after that. -/
private theorem trapped_of_pop {activation : Activation} {instruction : Instruction} {trap : Trap}
    {β : Type} {further : Word × Activation → Except Trap β} (takes : instruction.arity ≠ 0)
    (failed : (activation.pop >>= further) = .error trap)
    (after : ∀ value rest, activation.operands = value :: rest.operands →
      rest = { activation with operands := rest.operands } → further (value, rest) = .error trap →
      Trapped activation instruction trap) : Trapped activation instruction trap := by
  rcases bind_eq_error_iff.mp failed with failed | ⟨⟨value, rest⟩, popped, failed⟩
  · rcases pop_eq_error failed with ⟨empty, rfl⟩
    apply Trapped.stackUnderflow
    rw [empty]
    exact Nat.pos_of_ne_zero takes
  · rcases pop_eq_ok_iff.mp popped with ⟨operands, same⟩
    exact after value rest operands same failed

/-- An instruction that traps does so for one of these reasons. -/
theorem trapped_of_execute {activation : Activation} {instruction : Instruction} {trap : Trap}
    (failed : activation.execute instruction = .error trap) :
    Trapped activation instruction trap := by
  cases instruction with
  | nop | const _ | jump _ | call _ | ret => cases failed
  | unreachable =>
      cases failed
      exact .unreachable
  | localGet slot =>
      rcases bind_eq_error_iff.mp failed with failed | ⟨value, -, failed⟩
      · rcases local?_eq_error failed with ⟨outside, rfl⟩
        exact .noSuchLocal rfl outside
      · cases failed
  | localSet slot =>
      apply trapped_of_pop (by simp [Instruction.arity]) failed
      intro value rest operands same failed
      rcases bind_eq_error_iff.mp failed with failed | ⟨stored, -, failed⟩
      · rcases setLocal_eq_error failed with ⟨outside, rfl⟩
        rw [same] at outside
        exact .noSuchLocal rfl outside
      · cases failed
  | localTee slot =>
      apply trapped_of_pop (by simp [Instruction.arity]) failed
      intro value rest operands same failed
      rcases bind_eq_error_iff.mp failed with failed | ⟨stored, -, failed⟩
      · rcases setLocal_eq_error failed with ⟨outside, rfl⟩
        exact .noSuchLocal rfl outside
      · cases failed
  | binary op =>
      apply trapped_of_pop (by simp [Instruction.arity]) failed
      intro right rest operands same failed
      rcases bind_eq_error_iff.mp failed with failed | ⟨⟨left, others⟩, popped, failed⟩
      · rcases pop_eq_error failed with ⟨empty, rfl⟩
        apply Trapped.stackUnderflow
        rw [operands, empty]
        exact Nat.one_lt_two
      · rcases bind_eq_error_iff.mp failed with failed | ⟨value, -, failed⟩
        · rw [(pop_eq_ok_iff.mp popped).1] at operands
          rcases BinaryOp.apply_eq_error failed with ⟨divides, ⟨rfl, rfl⟩ | ⟨⟨rfl, rfl⟩, rfl⟩⟩
          · exact .divisionByZero divides operands
          · exact .integerOverflow divides operands
        · cases failed
  | drop | isZero | jumpIf _ | jumpIfNot _ =>
      apply trapped_of_pop (by simp [Instruction.arity]) failed
      intro value rest operands same failed
      cases failed

end Activation

namespace Machine

/-- Why an instruction of a machine traps. -/
inductive Trapped (module : Module) (limit : Nat) (machine : Machine) (instruction : Instruction) :
    Trap → Prop where
  /-- It traps inside the running activation. -/
  | inside {trap : Trap} (trapped : machine.top.next.Trapped instruction trap) :
      Trapped module limit machine instruction trap
  /-- There is no room for the activation of a call. -/
  | tooDeep {callee : UInt32} (is_call : instruction = .call callee) (full : limit ≤ machine.depth) :
      Trapped module limit machine instruction (.callDepthExceeded limit)
  /-- The function of a call does not exist. -/
  | noCallee {callee : UInt32} (is_call : instruction = .call callee)
      (missing : module.function? callee = none) :
      Trapped module limit machine instruction (.unknownFunction callee)
  /-- There are fewer operands than the function of a call takes. -/
  | fewArguments {callee : UInt32} {function : Function} (is_call : instruction = .call callee)
      (found : module.function? callee = some function)
      (few : machine.top.operands.length < function.params.toNat) :
      Trapped module limit machine instruction .stackUnderflow
  /-- There are fewer operands than the function of a return gives back. -/
  | fewResults {function : Function} (is_ret : instruction = .ret)
      (found : module.function? machine.top.function = some function)
      (few : machine.top.operands.length < function.results.toNat) :
      Trapped module limit machine instruction .stackUnderflow

variable {module : Module} {limit : Nat} {machine : Machine}

private theorem trapped_of_enterCall {callee : UInt32} {trap : Trap}
    (failed : ({ machine with top := machine.top.next } : Machine).enterCall module limit callee =
      .error trap) : Trapped module limit machine (.call callee) trap := by
  rw [enterCall] at failed
  split at failed
  · rename_i full
    cases failed
    exact .tooDeep rfl full
  · split at failed
    · rename_i missing
      cases failed
      exact .noCallee rfl missing
    · rename_i function found
      rcases bind_eq_error_iff.mp failed with failed | ⟨⟨arguments, caller⟩, -, failed⟩
      · rcases Activation.popMany_eq_error failed with ⟨few, rfl⟩
        exact .fewArguments rfl found few
      · cases failed

private theorem trapped_of_leaveCall {function : Function} {trap : Trap}
    (found : module.function? machine.top.function = some function)
    (failed : ({ machine with top := machine.top.next } : Machine).leaveCall module =
      .error trap) : Trapped module limit machine .ret trap := by
  have foundNext : module.function? machine.top.next.function = some function := found
  simp only [leaveCall, foundNext] at failed
  rcases bind_eq_error_iff.mp failed with failed | ⟨⟨values, rest⟩, -, failed⟩
  · rcases Activation.popMany_eq_error failed with ⟨few, rfl⟩
    exact .fewResults rfl found few
  · split at failed <;> cases failed

/-- A step that traps could not fetch its instruction, or the instruction traps for one of these
reasons. -/
theorem trapped_of_advance {trap : Trap} (failed : machine.advance module limit = .error trap) :
    machine.fetch module = .error trap ∨
      ∃ instruction, machine.fetch module = .ok instruction ∧
        Trapped module limit machine instruction trap := by
  rcases bind_eq_error_iff.mp failed with notFetched | ⟨instruction, fetched, notRun⟩
  · exact .inl notFetched
  refine .inr ⟨instruction, fetched, ?_⟩
  rcases bind_eq_error_iff.mp notRun with stuck | ⟨⟨effect, top⟩, ran, stuck⟩
  · exact .inside (Activation.trapped_of_execute stuck)
  rcases fetch_eq_ok_iff.mp fetched with ⟨function, found, -⟩
  have executed := Activation.executed_of_execute ran
  clear failed notRun
  cases effect with
  | proceed => cases stuck
  | call callee =>
      cases executed with
      | call is_call =>
          subst is_call
          rcases bind_eq_error_iff.mp stuck with notEntered | ⟨entered, -, impossible⟩
          · exact trapped_of_enterCall notEntered
          · cases impossible
  | ret =>
      cases executed with
      | ret is_ret =>
          subst is_ret
          exact trapped_of_leaveCall found stuck

theorem step_eq_trapped_iff {trap : Trap} {site : Site} :
    machine.step module limit = .trapped trap site ↔
      machine.advance module limit = .error trap ∧ site = machine.site := by
  simp only [step]
  cases machine.advance module limit with
  | error problem => simp [eq_comm]
  | ok result => cases result <;> simp

/-- A machine that fits its module finds its next instruction, and the running activation has the
slot that the instruction names. -/
theorem FitsIn.fetch_ok (fits : machine.FitsIn module) :
    ∃ instruction, machine.fetch module = .ok instruction ∧
      ∀ slot, instruction.localSlot? = some slot → slot.toNat < machine.top.locals.length := by
  rcases fits.each machine.top List.mem_cons_self with ⟨function, found, slots, inside⟩
  have at_pc : function.code[machine.top.pc]? = some function.code[machine.top.pc] :=
    Array.getElem?_eq_getElem inside
  refine ⟨_, fetch_eq_ok_iff.mpr ⟨function, found, at_pc⟩, ?_⟩
  intro slot named
  have declared := ((Module.fit_of_function? found).admits _ _ at_pc).slot slot named
  rw [slots]
  exact UInt32.lt_iff_toNat_lt.mp declared

/-- The functions that the instructions of a module call exist. -/
theorem exists_callee {callee : UInt32} (fetched : machine.fetch module = .ok (.call callee)) :
    ∃ function, module.function? callee = some function := by
  rcases fetch_eq_ok_iff.mp fetched with ⟨function, found, at_pc⟩
  have named := ((Module.fit_of_function? found).admits _ _ at_pc).callee callee rfl
  exact Option.isSome_iff_exists.mp ((module.function?_isSome_iff callee).mpr named)

/-- A machine that fits its module runs into ordinary traps only. -/
theorem FitsIn.ordinary (fits : machine.FitsIn module) {trap : Trap} {site : Site}
    (stepped : machine.step module limit = .trapped trap site) : trap.Ordinary limit := by
  rcases fits.fetch_ok with ⟨instruction, fetched, slots⟩
  rcases trapped_of_advance (step_eq_trapped_iff.mp stepped).1 with failed | ⟨other, fetched', trapped⟩
  · rw [fetched] at failed
    cases failed
  rw [fetched] at fetched'
  cases fetched'
  cases trapped with
  | inside trapped =>
      cases trapped with
      | unreachable => exact .unreachable
      | stackUnderflow => exact .stackUnderflow
      | divisionByZero => exact .divisionByZero
      | integerOverflow => exact .integerOverflow
      | noSuchLocal named outside => exact absurd (slots _ named) (Nat.not_lt.mpr outside)
  | tooDeep => exact .callDepthExceeded
  | noCallee is_call missing =>
      subst is_call
      rcases exists_callee fetched with ⟨function, found⟩
      rw [found] at missing
      cases missing
  | fewArguments | fewResults => exact .stackUnderflow

end Machine

end Ferry
