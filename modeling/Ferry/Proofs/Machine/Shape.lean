import Ferry.Proofs.Machine.Step
import Ferry.Proofs.Machine.Validity

/-!
# The shape of a machine that runs

Every live activation has the slots of its function and stands before an instruction of its body:
the one that runs before its next instruction, a caller before the one after its call. The outermost
activation belongs to the function that was called first, and there are never more activations than
the limit allows. Every step keeps this up, because the functions of a module are fit.
-/

namespace Ferry

variable {module : Module}

namespace Activation

/-- An activation has the slots of its function and stands before an instruction of the body. -/
def FitsIn (module : Module) (activation : Activation) : Prop :=
  ∃ function, module.function? activation.function = some function ∧
    activation.locals.length = function.locals.toNat ∧ activation.pc < function.code.size

/-- Only the function, the number of slots and the program counter matter. -/
theorem FitsIn.congr {activation other : Activation} (fits : activation.FitsIn module)
    (sameFunction : other.function = activation.function)
    (sameLength : other.locals.length = activation.locals.length)
    (samePc : other.pc = activation.pc) : other.FitsIn module := by
  rcases fits with ⟨function, found, slots, inside⟩
  exact ⟨function, by rw [sameFunction, found], by rw [sameLength, slots], by rw [samePc]; exact inside⟩

/-- The first instruction of a fit function can be entered with the arguments that it takes. -/
theorem fitsIn_enter {index : UInt32} {function : Function} {arguments : List Word}
    (found : module.function? index = some function)
    (arity : arguments.length = function.params.toNat) :
    (enter index function arguments).FitsIn module := by
  have fit := Module.fit_of_function? found
  have params_le : function.params.toNat ≤ function.locals.toNat :=
    UInt32.le_iff_toNat_le.mp fit.params_le
  rcases fit.terminated with ⟨last, isLast, -⟩
  refine ⟨function, found, ?_, ?_⟩
  · simp only [enter, List.length_append, List.length_replicate]
    omega
  · have nonempty : function.code ≠ #[] := by
      rintro empty
      simp [empty] at isLast
    exact Array.size_pos_iff.mpr nonempty

end Activation

namespace Function

/-- After an instruction that is no terminator there is another one. -/
theorem Fit.next_lt {function : Function} {count pc : Nat} {instruction : Instruction}
    (fit : function.Fit count) (at_pc : function.code[pc]? = some instruction)
    (falls : instruction.isTerminator = false) : pc + 1 < function.code.size := by
  obtain ⟨inside, -⟩ := Array.getElem?_eq_some_iff.mp at_pc
  rcases fit.terminated with ⟨last, isLast, ends⟩
  by_cases final : pc + 1 < function.code.size
  · exact final
  · have pc_eq : function.code.size - 1 = pc := by omega
    rw [Array.back?_eq_getElem?, pc_eq, at_pc] at isLast
    cases isLast
    rw [falls] at ends
    contradiction

end Function

namespace Activation

/-- An instruction inside an activation leads before another instruction of the same body. -/
theorem Executed.fitsIn {activation after : Activation} {instruction : Instruction}
    {function : Function} (executed : activation.next.Executed instruction .proceed after)
    (found : module.function? activation.function = some function)
    (slots : activation.locals.length = function.locals.toNat)
    (at_pc : function.code[activation.pc]? = some instruction) : after.FitsIn module := by
  have fit := Module.fit_of_function? found
  cases executed with
  | proceed function_eq length_eq pc_eq =>
      refine ⟨function, by rw [function_eq]; exact found, by rw [length_eq]; exact slots, ?_⟩
      rcases pc_eq with ⟨goesOn, falls⟩ | ⟨target, named, jumped⟩
      · rw [goesOn]
        exact fit.next_lt at_pc falls
      · rw [jumped]
        exact (fit.admits _ _ at_pc).jump target named

end Activation

namespace Machine

/-- The activations of a machine fit the module, and the outermost one belongs to the function that
was called first. -/
structure FitsIn (module : Module) (machine : Machine) : Prop where
  each : ∀ activation ∈ machine.activations, activation.FitsIn module
  outermost : (machine.activations.map Activation.function).getLast? = some machine.entry

/-- The machine of a call with the right number of arguments fits. -/
theorem fitsIn_start {index : UInt32} {function : Function} {arguments : List Word}
    (found : module.function? index = some function)
    (arity : arguments.length = function.params.toNat) :
    (start index function arguments).FitsIn module := by
  constructor
  · intro activation member
    rw [List.mem_singleton.mp member]
    exact Activation.fitsIn_enter found arity
  · rfl

/-- A step keeps the shape. -/
theorem Advanced.fitsIn {limit : Nat} {machine next : Machine} {instruction : Instruction}
    {function : Function} (advanced : Advanced module limit machine instruction (.inl next))
    (fits : machine.FitsIn module)
    (found : module.function? machine.top.function = some function)
    (at_pc : function.code[machine.top.pc]? = some instruction) : next.FitsIn module := by
  have top_fits := fits.each _ List.mem_cons_self
  have callers_fit : ∀ caller ∈ machine.callers, caller.FitsIn module := fun caller member =>
    fits.each caller (List.mem_cons_of_mem _ member)
  rcases top_fits with ⟨_, found', slots, -⟩
  obtain rfl := Option.some.inj (found'.symm.trans found)
  have outermost := fits.outermost
  cases advanced with
  | proceed executed =>
      constructor
      · intro activation member
        rcases List.mem_cons.mp member with rfl | member
        · exact executed.fitsIn found slots at_pc
        · exact callers_fit activation member
      · cases executed with
        | proceed function_eq _ _ =>
            simp only [activations, List.map_cons, function_eq] at outermost ⊢
            exact outermost
  | @call callee calledFunction is_call _ foundCallee enough =>
      subst is_call
      constructor
      · intro activation member
        rcases List.mem_cons.mp member with rfl | member
        · exact Activation.fitsIn_enter foundCallee (by simp [enough])
        rcases List.mem_cons.mp member with rfl | member
        · exact ⟨_, found, slots, (Module.fit_of_function? found).next_lt at_pc rfl⟩
        · exact callers_fit activation member
      · simp only [activations, List.map_cons, List.getLast?_cons_cons] at outermost ⊢
        exact outermost
  | @ret _ caller callers is_ret _ enough waits =>
      rw [waits] at callers_fit
      constructor
      · intro activation member
        rcases List.mem_cons.mp member with rfl | member
        · exact (callers_fit caller List.mem_cons_self).congr rfl rfl rfl
        · exact callers_fit activation (List.mem_cons_of_mem _ member)
      · simp only [activations, waits, List.map_cons, List.getLast?_cons_cons] at outermost ⊢
        exact outermost

/-- A step never leads over a bound that is not under the limit. -/
theorem Advanced.depth_le {limit bound : Nat} {machine next : Machine} {instruction : Instruction}
    (advanced : Advanced module limit machine instruction (.inl next)) (limit_le : limit ≤ bound)
    (depth_le : machine.depth ≤ bound) : next.depth ≤ bound := by
  cases advanced with
  | proceed _ => exact depth_le
  | call _ room _ _ => exact Nat.le_trans room limit_le
  | ret _ _ _ waits =>
      simp only [depth, waits, List.length_cons] at depth_le ⊢
      omega

theorem step_eq_running_iff {limit : Nat} {machine next : Machine} :
    machine.step module limit = .running next ↔ machine.advance module limit = .ok (.inl next) := by
  simp only [step]
  split <;> simp_all

/-- What every machine of a run has: it fits the module and respects the limit. -/
structure Regular (module : Module) (limit : Nat) (machine : Machine) : Prop where
  fitsIn : machine.FitsIn module
  depth_le : machine.depth ≤ limit

theorem regular_start {index : UInt32} {function : Function} {arguments : List Word} {limit : Nat}
    (found : module.function? index = some function)
    (arity : arguments.length = function.params.toNat) (limit_pos : 1 ≤ limit) :
    (start index function arguments).Regular module limit :=
  ⟨fitsIn_start found arity, limit_pos⟩

theorem FitsIn.step {limit : Nat} {machine next : Machine} (fits : machine.FitsIn module)
    (stepped : machine.step module limit = .running next) : next.FitsIn module := by
  obtain ⟨function, instruction, found, at_pc, advanced⟩ :=
    advanced_of_advance (step_eq_running_iff.mp stepped)
  exact advanced.fitsIn fits found at_pc

/-- A step of a regular machine leads to a regular machine. -/
theorem Regular.step {limit : Nat} {machine next : Machine} (regular : machine.Regular module limit)
    (stepped : machine.step module limit = .running next) : next.Regular module limit := by
  obtain ⟨function, instruction, -, -, advanced⟩ :=
    advanced_of_advance (step_eq_running_iff.mp stepped)
  exact ⟨regular.fitsIn.step stepped, advanced.depth_le (Nat.le_refl _) regular.depth_le⟩

end Machine

end Ferry
