import Ferry.Program.Builtin
import Ferry.Proofs.Engine.Ending
import Mathlib.Data.List.Chain

/-!
# The chain of calls in a snapshot

Every activation but the running one stands right after the call that the activation above it
answers. The program counter is past the call before the callee is entered, a call never ends a
body, and nothing but a return gets at a waiting activation; so every step keeps the chain up, and
recording and rebuilding keep it as well. When a snapshot is resumed, a caller therefore goes on
behind its call, with the results of the callee, and does not call again.
-/

namespace Ferry

namespace Activation

/-- A caller stands right after its call of the function of another activation. -/
def CalledBy (module : Module) (callee caller : Activation) : Prop :=
  ∃ function, module.function? caller.function = some function ∧ 0 < caller.pc ∧
    function.code[caller.pc - 1]? = some (.call callee.function)

/-- Of the callee only the function matters, and of the caller the function and the program
counter. -/
theorem CalledBy.congr {module : Module} {callee caller other : Activation}
    (called : callee.CalledBy module caller) (same : other.function = callee.function) :
    other.CalledBy module caller := by
  rw [CalledBy, same]
  exact called

end Activation

namespace Machine

variable {module : Module} {limit : Nat} {machine next : Machine}

/-- Every activation was called by the one below it. -/
def Linked (module : Module) (machine : Machine) : Prop :=
  machine.activations.IsChain (Activation.CalledBy module)

theorem linked_start (index : UInt32) (function : Function) (arguments : List Word) :
    (start index function arguments).Linked module :=
  .singleton _

/-- The topmost activation of a chain may be replaced by another one of the same function. -/
private theorem isChain_replace {top other : Activation} {callers : List Activation}
    (chain : (top :: callers).IsChain (Activation.CalledBy module))
    (same : other.function = top.function) :
    (other :: callers).IsChain (Activation.CalledBy module) := by
  cases chain with
  | singleton => exact .singleton other
  | cons_cons called chain => exact .cons_cons (called.congr same) chain

/-- A step keeps the chain up: a call adds its own link, and a return takes the topmost one away. -/
theorem Advanced.linked {instruction : Instruction} {function : Function}
    (advanced : Advanced module limit machine instruction (.inl next))
    (linked : machine.Linked module)
    (found : module.function? machine.top.function = some function)
    (at_pc : function.code[machine.top.pc]? = some instruction) : next.Linked module := by
  cases advanced with
  | proceed executed =>
      cases executed with
      | proceed function_eq _ _ => exact isChain_replace linked function_eq
  | call is_call _ _ _ =>
      subst is_call
      refine .cons_cons ⟨function, found, Nat.succ_pos _, at_pc⟩ ?_
      exact isChain_replace linked rfl
  | ret _ _ _ waits =>
      rw [Linked, activations, waits] at linked
      cases linked with
      | cons_cons _ chain => exact isChain_replace chain rfl

theorem Linked.step (linked : machine.Linked module)
    (stepped : machine.step module limit = .running next) : next.Linked module := by
  obtain ⟨function, instruction, found, at_pc, advanced⟩ :=
    advanced_of_advance (step_eq_running_iff.mp stepped)
  exact advanced.linked linked found at_pc

theorem Linked.calledBy (linked : machine.Linked module) {position : Nat}
    {callee caller : Activation} (at_callee : machine.activations[position]? = some callee)
    (at_caller : machine.activations[position + 1]? = some caller) :
    callee.CalledBy module caller := by
  obtain ⟨_, rfl⟩ := List.getElem?_eq_some_iff.mp at_callee
  obtain ⟨inside, rfl⟩ := List.getElem?_eq_some_iff.mp at_caller
  exact List.isChain_iff_getElem.mp linked position inside

/-- What waits above a caller and what waits below it. -/
theorem split_callers {position : Nat} {caller : Activation}
    (at_caller : machine.activations[position + 1]? = some caller) :
    machine.callers =
      machine.callers.take position ++ caller :: machine.callers.drop (position + 1) := by
  rw [activations, List.getElem?_cons_succ] at at_caller
  obtain ⟨inside, rfl⟩ := List.getElem?_eq_some_iff.mp at_caller
  rw [List.getElem_cons_drop, List.take_append_drop]

/-- A step leaves a waiting activation as it is, or returns to it. -/
theorem Advanced.waits_or_returns {instruction : Instruction} {above below : List Activation}
    {caller : Activation} (advanced : Advanced module limit machine instruction (.inl next))
    (waits : machine.callers = above ++ caller :: below) :
    (∃ above, next.callers = above ++ caller :: below) ∨
      ∃ values, next.top = caller.pushMany values ∧ next.callers = below := by
  cases advanced with
  | proceed _ => exact .inl ⟨above, waits⟩
  | call _ _ _ _ => exact .inl ⟨_ :: above, congrArg _ waits⟩
  | ret _ _ _ first =>
      rw [first] at waits
      cases above with
      | nil =>
          cases waits
          exact .inr ⟨_, rfl, rfl⟩
      | cons other above =>
          cases waits
          exact .inl ⟨above, rfl⟩

end Machine

namespace Engine

variable {engine : Engine}

theorem linked_after {count : Nat} {origin machine : Machine} (linked : origin.Linked engine.module)
    (passed : engine.after count origin = some machine) : machine.Linked engine.module :=
  after_induction linked (fun _ _ linked stepped => linked.step stepped) passed

/-- A waiting activation waits unchanged until the computation returns to it. -/
theorem waits_or_returned {origin machine : Machine} {above below : List Activation}
    {caller : Activation} {count : Nat} (waits : origin.callers = above ++ caller :: below)
    (passed : engine.after count origin = some machine) :
    (∃ above, machine.callers = above ++ caller :: below) ∨
      ∃ earlier returned values, earlier ≤ count ∧ engine.after earlier origin = some returned ∧
        returned.top = caller.pushMany values ∧ returned.callers = below := by
  induction count generalizing machine with
  | zero =>
      cases passed
      exact .inl ⟨above, waits⟩
  | succ count ih =>
      obtain ⟨between, passes, goes⟩ := Option.bind_eq_some_iff.mp passed
      rcases ih passes with ⟨above, waits⟩ | ⟨earlier, returned, values, le, reached, back⟩
      · obtain ⟨_, _, -, -, advanced⟩ :=
          Machine.advanced_of_advance (Machine.step_eq_running_iff.mp (step_of_next? goes))
        rcases advanced.waits_or_returns waits with stillWaits | ⟨values, back⟩
        · exact .inl stillWaits
        · exact .inr ⟨count + 1, machine, values, Nat.le_refl _, passed, back⟩
      · exact .inr ⟨earlier, returned, values, Nat.le_succ_of_le le, reached, back⟩

end Engine

/-- A snapshot that was captured in a call of a function, or in the continuation of such a snapshot.
Every leg of this chain has a limit and surroundings of its own. -/
inductive Module.Captured (module : Module) (entry : UInt32) : Snapshot → Prop where
  | ofCall {limit : Nat} {arguments : List Word} {around : Engine.Surroundings}
      {snapshot : Snapshot}
      (paused : (Engine.mk module limit).ComesTo around
        ((Engine.mk module limit).call entry arguments) (.paused snapshot)) :
      Captured module entry snapshot
  | ofResume {limit : Nat} {around : Engine.Surroundings} {earlier snapshot : Snapshot}
      (before : Captured module entry earlier)
      (paused : (Engine.mk module limit).ComesTo around
        ((Engine.mk module limit).resume earlier) (.paused snapshot)) :
      Captured module entry snapshot

namespace Snapshot

/-- The shape of a snapshot that records a computation. -/
structure Shaped (module : Module) (entry : UInt32) (snapshot : Snapshot) : Prop where
  valid : snapshot.valid = true
  nonempty : snapshot.frames ≠ []
  entry_eq : snapshot.entry = entry
  /-- The outermost frame belongs to the function that was called first. -/
  outermost : ∃ frame, snapshot.outermost? = some frame ∧ frame.functionIndex = entry
  /-- Every frame has the slots of its function and stands before an instruction of its body. -/
  fits : ∀ frame ∈ snapshot.frames, ∃ function,
    module.function? frame.functionIndex = some function ∧
      frame.locals.length = function.locals.toNat ∧
      frame.programCounter.toNat < function.code.size
  /-- The instruction before the one at which a caller stands is the call of the frame above it. -/
  called : ∀ position callee caller, snapshot.frames[position]? = some callee →
    snapshot.frames[position + 1]? = some caller → ∃ function,
      module.function? caller.functionIndex = some function ∧ 0 < caller.programCounter.toNat ∧
        function.code[caller.programCounter.toNat - 1]? = some (.call callee.functionIndex)
  /-- When the snapshot is resumed, a caller waits until it goes on where its frame says, with the
  results of the callee. -/
  returns : ∀ limit invocation, (Engine.mk module limit).resume snapshot = .ok invocation →
    ∀ position caller, snapshot.frames[position + 1]? = some caller →
      ∀ count machine, (Engine.mk module limit).after count invocation.machine = some machine →
        (∃ above, machine.callers = above ++ .ofFrame caller ::
          (snapshot.frames.drop (position + 2)).map .ofFrame) ∨
        ∃ earlier returned values, earlier ≤ count ∧
          (Engine.mk module limit).after earlier invocation.machine = some returned ∧
          returned.top = (Activation.ofFrame caller).pushMany values ∧
          returned.callers = (snapshot.frames.drop (position + 2)).map .ofFrame

end Snapshot

namespace Module.Captured

variable {module : Module} {entry : UInt32} {snapshot : Snapshot}

/-- A captured snapshot is the record of a machine that fits its module and whose activations are
linked. -/
theorem record (captured : module.Captured entry snapshot) (addressable : module.Addressable) :
    ∃ machine : Machine, snapshot = machine.record ∧ machine.entry = entry ∧
      machine.FitsIn module ∧ machine.Linked module := by
  induction captured with
  | @ofCall limit arguments around snapshot paused =>
      rcases Engine.passes_of_paused paused with ⟨machine, ⟨invocation, count, called, passed⟩, rfl⟩
      rcases Engine.start_of_call called with ⟨function, -, -, rfl⟩
      refine ⟨machine, rfl, ?_, Engine.fitsIn_after (Engine.fitsIn_of_call called) passed,
        Engine.linked_after (Machine.linked_start _ _ _) passed⟩
      exact Engine.entry_after passed
  | @ofResume limit around earlier snapshot before paused ih =>
      rcases ih with ⟨first, rfl, same_entry, fits, linked⟩
      rcases Engine.passes_of_paused paused with
        ⟨machine, ⟨invocation, count, resumed, passed⟩, rfl⟩
      rcases Engine.resume_eq_ok_iff.mp resumed with ⟨-, -, recordable, recorded⟩
      have same := recordable.record_inj (addressable.recordable fits) recorded
      rw [same] at passed
      exact ⟨machine, rfl, (Engine.entry_after passed).trans same_entry,
        Engine.fitsIn_after fits passed, Engine.linked_after linked passed⟩

/-- Every captured snapshot records a chain of calls: the frames fit their functions, the outermost
one belongs to the function that was called first, and every caller stands right after its call,
where it goes on when the snapshot is resumed. -/
theorem shaped (captured : module.Captured entry snapshot) (addressable : module.Addressable) :
    snapshot.Shaped module entry := by
  rcases captured.record addressable with ⟨machine, rfl, rfl, fits, linked⟩
  have recordable := addressable.recordable fits
  have frames_at : ∀ (position : Nat) (frame : Frame),
      machine.record.frames[position]? = some frame →
      machine.activations[position]? = some (Activation.ofFrame frame) := by
    intro position frame at_position
    rw [← recordable.ofFrame_frames, List.getElem?_map, at_position, Option.map_some]
  constructor
  case valid => rfl
  case nonempty => exact List.cons_ne_nil _ _
  case entry_eq => rfl
  case outermost =>
    have outermost := fits.outermost
    rw [← recordable.ofFrame_frames, List.map_map, List.getLast?_map] at outermost
    exact Option.map_eq_some_iff.mp outermost
  case fits =>
    intro frame member
    have each : Activation.ofFrame frame ∈ machine.activations := by
      rw [← recordable.ofFrame_frames]
      exact List.mem_map_of_mem member
    exact fits.each _ each
  case called =>
    intro position callee caller at_callee at_caller
    exact linked.calledBy (frames_at _ _ at_callee) (frames_at _ _ at_caller)
  case returns =>
    intro limit invocation resumed position caller at_caller count later passed
    rcases Engine.resume_eq_ok_iff.mp resumed with ⟨-, -, recordable', recorded⟩
    have same := recordable'.record_inj recordable recorded
    rw [same] at passed ⊢
    have below : (machine.record.frames.drop (position + 2)).map Activation.ofFrame =
        machine.callers.drop (position + 1) := by
      rw [List.map_drop, recordable.ofFrame_frames]
      rfl
    rw [below]
    exact Engine.waits_or_returned (Machine.split_callers (frames_at _ _ at_caller)) passed

/-- A snapshot in the recursive call for 2, captured one instruction after an earlier one: the
caller stands behind its call at 9. -/
theorem shaped_fib :
    Program.fib.module.Captured 0 ⟨true, [⟨1, 0, [2], [2]⟩, ⟨10, 0, [3], []⟩], 0⟩ ∧
    Program.fibCode[10 - 1]? = some (.call 0) ∧
    Snapshot.Shaped Program.fib.module 0 ⟨true, [⟨1, 0, [2], [2]⟩, ⟨10, 0, [3], []⟩], 0⟩ := by
  have first : Program.fib.module.Captured 0 ⟨true, [⟨0, 0, [2], []⟩, ⟨10, 0, [3], []⟩], 0⟩ :=
    @ofCall _ _ 10000 [3] { arms := (· == 8) } _ ⟨9, {}, rfl⟩
  have second : Program.fib.module.Captured 0 ⟨true, [⟨1, 0, [2], [2]⟩, ⟨10, 0, [3], []⟩], 0⟩ :=
    @ofResume _ _ 2 { signal := ⟨true⟩ } _ _ first ⟨2, {}, rfl⟩
  exact ⟨second, rfl, shaped second Program.addressable_fib⟩

end Module.Captured

end Ferry
