import Ferry.Program.Builtin
import Ferry.Proofs.Engine.Ending
import Ferry.Proofs.Machine.Stacking

/-!
# A call inside a computation

A call inside a computation is a computation of its own. While the callee is live, the machine is
that of the callee alone, on top of the activations that wait; and the caller goes on as soon as the
callee alone is done, with its results. The waiting activations are felt in one way only: the limit
under which the callee alone runs is lower by their number.
-/

namespace Ferry

namespace Machine

/-- What waits below a callee: its caller, which stands after the call and has given up the
arguments, and the callers of this one. -/
def waiting (machine : Machine) (rest : List Word) : List Activation :=
  { machine.top with pc := machine.top.pc + 1, operands := rest } :: machine.callers

/-- The machine after a call. The caller stands after the call and has the results on top of the
operands that are left; its slots and everything below it are as they were. -/
def answered (machine : Machine) (rest values : List Word) : Machine :=
  { machine with
    top := { machine.top with pc := machine.top.pc + 1, operands := values.reverse ++ rest } }

@[simp]
theorem waiting_length (machine : Machine) (rest : List Word) :
    (machine.waiting rest).length = machine.depth :=
  rfl

@[simp]
theorem answered_depth (machine : Machine) (rest values : List Word) :
    (machine.answered rest values).depth = machine.depth :=
  rfl

end Machine

namespace Engine

/-- The same engine with room for so many activations fewer. -/
def above (engine : Engine) (count : Nat) : Engine :=
  { engine with maxCallDepth := engine.maxCallDepth - count }

/-- A machine is about to call a function with arguments, and there is room for the callee. -/
structure Calls (engine : Engine) (machine : Machine) (callee : UInt32) (function : Function)
    (arguments rest : List Word) : Prop where
  fetched : machine.fetch engine.module = .ok (.call callee)
  found : engine.module.function? callee = some function
  arity : arguments.length = function.params.toNat
  operands : machine.top.operands = arguments.reverse ++ rest
  room : machine.depth < engine.maxCallDepth

/-- The callee of a machine that calls has returned: after so many instructions there are again no
more live activations than before the call, for the first time. -/
structure ReturnsAfter (engine : Engine) (machine : Machine) (count : Nat) (later : Machine) :
    Prop where
  called : 0 < count
  reached : engine.after count machine = some later
  left : later.depth ≤ machine.depth
  inside : ∀ earlier between, 0 < earlier → earlier < count →
    engine.after earlier machine = some between → machine.depth < between.depth

/-- The callee of a machine that calls, called from outside with the room that there is above this
machine, ends with an outcome. -/
def EndsAlone (engine : Engine) (machine : Machine) (callee : UInt32) (arguments : List Word)
    (outcome : Outcome Fault) : Prop :=
  (engine.above machine.depth).Ends ((engine.above machine.depth).call callee arguments) outcome

variable {engine : Engine}

@[simp]
theorem above_module (engine : Engine) (count : Nat) :
    (engine.above count).module = engine.module :=
  rfl

/-- A callee returns once. -/
theorem ReturnsAfter.unique {machine later other : Machine} {count number : Nat}
    (returns : engine.ReturnsAfter machine count later)
    (again : engine.ReturnsAfter machine number other) : later = other := by
  have not_lt : ¬ count < number := fun lt =>
    Nat.not_le.mpr (again.inside count later returns.called lt returns.reached) returns.left
  have not_gt : ¬ number < count := fun lt =>
    Nat.not_le.mpr (returns.inside number other again.called lt again.reached) again.left
  have same : count = number := Nat.le_antisymm (Nat.not_lt.mp not_gt) (Nat.not_lt.mp not_lt)
  have reached := returns.reached
  rw [same, again.reached] at reached
  exact (Option.some.inj reached).symm

section OnTop

variable {below : List Activation}

/-- There is room for a call on top of waiting activations exactly when there is room alone. -/
theorem room_above (engine : Engine) (machine : Machine) (below : List Activation) :
    engine.maxCallDepth ≤ machine.depth + below.length ↔
      (engine.above below.length).maxCallDepth ≤ machine.depth :=
  Nat.sub_le_iff_le_add.symm

theorem next?_onTopOf (entry : UInt32) {machine next : Machine}
    (goes : (engine.above below.length).next? machine = some next) :
    engine.next? (machine.onTopOf entry below) = some (next.onTopOf entry below) := by
  have stepped := Machine.running_onTopOf entry (room_above engine machine below)
    (step_of_next? goes)
  rw [above_module] at stepped
  rw [next?, stepped]

/-- Where a computation completes alone, the topmost of the waiting activations goes on. -/
theorem next?_onTopOf_of_completed (entry : UInt32) {caller : Activation}
    {callers : List Activation} {machine : Machine} {values : List Word}
    (ended : (engine.above (caller :: callers).length).end? machine = some (.completed values)) :
    engine.next? (machine.onTopOf entry (caller :: callers)) =
      some ⟨entry, caller.pushMany values, callers⟩ := by
  have stepped := Machine.halted_onTopOf entry (room_above engine machine (caller :: callers))
    (halted_of_end? ended)
  rw [above_module] at stepped
  rw [next?, stepped]

/-- Where a computation traps alone, it traps on top of waiting activations. -/
theorem end?_onTopOf_of_faulted (entry : UInt32) {machine : Machine} {fault : Fault}
    (ended : (engine.above below.length).end? machine = some (.faulted fault)) :
    ∃ trap function pc, fault = .trapped trap function pc ∧
      engine.end? (machine.onTopOf entry below) =
        some (.faulted (.trapped (trap.under engine.maxCallDepth) function pc)) := by
  rcases trapped_of_end? ended with ⟨trap, site, stepped, isTrapped⟩
  have trapped := Machine.trapped_onTopOf entry (room_above engine machine below) stepped
  rw [above_module] at trapped
  refine ⟨trap, _, _, isTrapped, ?_⟩
  rw [end?_eq_some_iff, advance, trapped]
  rfl

/-- On top of waiting activations a computation takes its course. -/
theorem after_onTopOf (entry : UInt32) {count : Nat} {origin machine : Machine}
    (passed : (engine.above below.length).after count origin = some machine) :
    engine.after count (origin.onTopOf entry below) = some (machine.onTopOf entry below) := by
  induction count generalizing machine with
  | zero =>
      cases passed
      rfl
  | succ count ih =>
      obtain ⟨between, passes, goes⟩ := Option.bind_eq_some_iff.mp passed
      rw [after_succ, ih passes]
      exact next?_onTopOf entry goes

end OnTop

namespace Calls

variable {machine : Machine} {callee : UInt32} {function : Function} {arguments rest : List Word}

/-- Alone, the callee is called with the right number of arguments. -/
theorem call_eq (calls : engine.Calls machine callee function arguments rest) :
    (engine.above machine.depth).call callee arguments =
      .ok ⟨.start callee function arguments, true⟩ := by
  simp [call, calls.found, calls.arity]

/-- The instruction puts the start of the callee on top of what waits for it. -/
theorem next?_eq (calls : engine.Calls machine callee function arguments rest) :
    engine.next? machine =
      some ((Machine.start callee function arguments).onTopOf machine.entry
        (machine.waiting rest)) := by
  have popped : machine.top.next.popMany function.params.toNat =
      .ok (arguments, { machine.top.next with operands := rest }) := by
    apply Activation.popMany_eq_ok_iff.mpr
    simp [Activation.next, calls.operands, ← calls.arity]
  have entered : ({ machine with top := machine.top.next } : Machine).enterCall engine.module
      engine.maxCallDepth callee =
        .ok ((Machine.start callee function arguments).onTopOf machine.entry
          (machine.waiting rest)) := by
    have room : ¬ engine.maxCallDepth ≤ ({ machine with top := machine.top.next } : Machine).depth :=
      Nat.not_le.mpr calls.room
    rw [Machine.enterCall, if_neg room, calls.found]
    simp only [popped]
    rfl
  have advanced : machine.advance engine.module engine.maxCallDepth =
      .ok (.inl ((Machine.start callee function arguments).onTopOf machine.entry
        (machine.waiting rest))) := by
    rw [Machine.advance, calls.fetched]
    change ({ machine with top := machine.top.next } : Machine).enterCall engine.module
      engine.maxCallDepth callee >>= _ = _
    rw [entered]
    rfl
  rw [next?, Machine.step_eq_running_iff.mpr advanced]

/-- While the callee is live, the machine is that of the callee alone on top of what waits. -/
theorem after_succ_eq (calls : engine.Calls machine callee function arguments rest) {count : Nat}
    {inner : Machine}
    (passed : (engine.above machine.depth).after count (.start callee function arguments) =
      some inner) :
    engine.after (count + 1) machine =
      some (inner.onTopOf machine.entry (machine.waiting rest)) := by
  rw [after_succ', calls.next?_eq]
  exact after_onTopOf machine.entry passed

theorem depth_lt_onTopOf (machine inner : Machine) (rest : List Word) :
    machine.depth < (inner.onTopOf machine.entry (machine.waiting rest)).depth := by
  rw [Machine.onTopOf_depth, Machine.waiting_length]
  exact Nat.lt_add_of_pos_left (Nat.succ_pos inner.callers.length)

/-- If the callee alone is done, it returns. -/
theorem returnsAfter (calls : engine.Calls machine callee function arguments rest) {count : Nat}
    {last : Machine} {values : List Word}
    (passed : (engine.above machine.depth).after count (.start callee function arguments) =
      some last)
    (ended : (engine.above machine.depth).end? last = some (.completed values)) :
    engine.ReturnsAfter machine (count + 2) (machine.answered rest values) where
  called := Nat.succ_pos _
  reached := by
    rw [after_succ, calls.after_succ_eq passed]
    exact next?_onTopOf_of_completed machine.entry ended
  left := Nat.le_of_eq (machine.answered_depth rest values)
  inside := by
    intro earlier between positive before reached
    obtain ⟨index, rfl⟩ := Nat.exists_eq_succ_of_ne_zero (Nat.ne_of_gt positive)
    have le : index ≤ count := Nat.le_of_lt_succ (Nat.lt_of_succ_lt_succ before)
    rcases after_of_le le passed with ⟨inner, passes⟩
    rw [Nat.succ_eq_add_one, calls.after_succ_eq passes] at reached
    cases reached
    exact depth_lt_onTopOf machine inner rest

/-- If the callee returns, it is done alone. The callee alone cannot run on to the end of the call,
where its activation is gone, and if it trapped before, there would be no end of the call. -/
theorem completed_of_returnsAfter (calls : engine.Calls machine callee function arguments rest)
    {count : Nat} {later : Machine} (returns : engine.ReturnsAfter machine count later) :
    ∃ earlier last values,
      (engine.above machine.depth).after earlier (.start callee function arguments) = some last ∧
        (engine.above machine.depth).end? last = some (.completed values) := by
  obtain ⟨index, rfl⟩ := Nat.exists_eq_succ_of_ne_zero (Nat.ne_of_gt returns.called)
  rcases (engine.above machine.depth).after_or_end? (.start callee function arguments) index with
    ⟨inner, passed⟩ | ⟨earlier, last, outcome, before, passed, ended⟩
  · have reached := calls.after_succ_eq passed
    rw [← Nat.succ_eq_add_one, returns.reached] at reached
    cases reached
    exact absurd returns.left (Nat.not_le.mpr (depth_lt_onTopOf machine inner rest))
  · cases outcome with
    | completed values => exact ⟨earlier, last, values, passed, ended⟩
    | paused snapshot =>
        have notPaused := not_isPaused_of_end? ended
        contradiction
    | faulted fault =>
        rw [← Machine.waiting_length machine rest] at ended
        rcases end?_onTopOf_of_faulted machine.entry ended with ⟨_, _, _, -, stops⟩
        have last_count := le_of_end? (calls.after_succ_eq passed) stops returns.reached
        exact absurd (Nat.le_of_succ_le_succ last_count) (Nat.not_le.mpr before)

/-- The callee alone completes with the results of its function. -/
theorem length_of_completed (calls : engine.Calls machine callee function arguments rest)
    {count : Nat} {last : Machine} {values : List Word}
    (passed : (engine.above machine.depth).after count (.start callee function arguments) =
      some last)
    (ended : (engine.above machine.depth).end? last = some (.completed values)) :
    values.length = function.results.toNat := by
  have fits : last.FitsIn (engine.above machine.depth).module :=
    fitsIn_after (Machine.fitsIn_start calls.found calls.arity) passed
  have same_entry : last.entry = callee := entry_after passed
  have found : engine.module.function? last.entry = some function := by
    rw [same_entry]
    exact calls.found
  exact fits.length_of_halted (halted_of_end? ended) found

/-- The callee alone ends with the outcome of the last instruction on its course. -/
theorem endsAlone_iff (calls : engine.Calls machine callee function arguments rest)
    {outcome : Outcome Fault} :
    engine.EndsAlone machine callee arguments outcome ↔
      ∃ count last,
        (engine.above machine.depth).after count (.start callee function arguments) = some last ∧
          (engine.above machine.depth).end? last = some outcome := by
  rw [EndsAlone, calls.call_eq, ends_iff]
  constructor
  · rintro (⟨_, impossible, -⟩ | ⟨last, ⟨_, count, same, passed⟩, ended⟩)
    · cases impossible
    · cases same
      exact ⟨count, last, passed, ended⟩
  · rintro ⟨count, last, passed, ended⟩
    exact .inr ⟨last, ⟨_, count, rfl, passed⟩, ended⟩

/-- If the callee alone goes on for ever, the computation goes on for ever. -/
theorem not_ends (calls : engine.Calls machine callee function arguments rest)
    {begun : Except Fault Invocation} (passes : engine.Passes begun machine)
    (endless : ∀ outcome, ¬ engine.EndsAlone machine callee arguments outcome)
    (outcome : Outcome Fault) : ¬ engine.Ends begun outcome := by
  intro ends
  rcases passes with ⟨invocation, earlier, rfl, reached⟩
  rcases ends_iff.mp ends with ⟨_, impossible, -⟩ | ⟨last, ⟨_, count, same, passed⟩, ended⟩
  · cases impossible
  cases same
  rcases (engine.above machine.depth).after_or_end? (.start callee function arguments) count
    with ⟨inner, goesOn⟩ | ⟨index, stop, result, -, stopped, stops⟩
  · have further : engine.after (earlier + (count + 1)) invocation.machine =
        some (inner.onTopOf machine.entry (machine.waiting rest)) := by
      rw [after_add, reached]
      exact calls.after_succ_eq goesOn
    have too_long : earlier + (count + 1) ≤ count := le_of_end? passed ended further
    omega
  · exact endless result (calls.endsAlone_iff.mpr ⟨index, stop, stopped, stops⟩)

end Calls

/-- What a call inside a computation has to do with the callee alone. -/
structure AnswersAsAlone (engine : Engine) (begun : Except Fault Invocation) (machine : Machine)
    (callee : UInt32) (function : Function) (arguments rest : List Word) : Prop where
  /-- If the callee returns, the caller goes on with the results of the callee alone. -/
  returns : ∀ count later, engine.ReturnsAfter machine count later →
    ∃ values, values.length = function.results.toNat ∧
      engine.EndsAlone machine callee arguments (.completed values) ∧
      later = machine.answered rest values
  /-- If the callee alone completes, the callee returns. -/
  completes : ∀ values, engine.EndsAlone machine callee arguments (.completed values) →
    ∃ count, engine.ReturnsAfter machine count (machine.answered rest values)
  /-- If the callee alone traps, the computation traps in the same place. -/
  faults : ∀ fault, engine.EndsAlone machine callee arguments (.faulted fault) →
    ∃ trap name pc, fault = .trapped trap name pc ∧
      engine.Ends begun (.faulted (.trapped (trap.under engine.maxCallDepth) name pc))
  /-- If the callee alone goes on for ever, the callee does not return, and the computation goes on
  for ever. -/
  diverges : (∀ outcome, ¬ engine.EndsAlone machine callee arguments outcome) →
    (∀ count later, ¬ engine.ReturnsAfter machine count later) ∧
      ∀ outcome, ¬ engine.Ends begun outcome

/-- A call inside a computation answers as the callee alone does. -/
theorem calls_answer_as_alone {begun : Except Fault Invocation} {machine : Machine}
    {callee : UInt32} {function : Function} {arguments rest : List Word}
    (passes : engine.Passes begun machine)
    (calls : engine.Calls machine callee function arguments rest) :
    engine.AnswersAsAlone begun machine callee function arguments rest := by
  constructor
  case returns =>
    intro count later returned
    rcases calls.completed_of_returnsAfter returned with ⟨index, last, values, passed, ended⟩
    exact ⟨values, calls.length_of_completed passed ended,
      calls.endsAlone_iff.mpr ⟨index, last, passed, ended⟩,
      returned.unique (calls.returnsAfter passed ended)⟩
  case completes =>
    intro values ends
    rcases calls.endsAlone_iff.mp ends with ⟨count, last, passed, ended⟩
    exact ⟨count + 2, calls.returnsAfter passed ended⟩
  case faults =>
    intro fault ends
    rcases calls.endsAlone_iff.mp ends with ⟨count, last, passed, ended⟩
    rw [← Machine.waiting_length machine rest] at ended
    rcases end?_onTopOf_of_faulted machine.entry ended with ⟨trap, name, pc, isTrapped, stops⟩
    exact ⟨trap, name, pc, isTrapped,
      ends_iff.mpr (.inr ⟨_, passes.after (calls.after_succ_eq passed), stops⟩)⟩
  case diverges =>
    intro endless
    constructor
    · intro count later returned
      rcases calls.completed_of_returnsAfter returned with ⟨index, last, values, passed, ended⟩
      exact endless (.completed values) (calls.endsAlone_iff.mpr ⟨index, last, passed, ended⟩)
    · exact calls.not_ends passes endless

/-- In the computation of the Fibonacci number of 2, the second recursive call is made over the
result of the first and returns to it; and in that of 3, if there is room for two activations, the
first recursive call traps where it traps alone with room for one. -/
theorem calls_answer_as_alone_fib :
    (∃ count, (Engine.mk Program.fib.module 10).ReturnsAfter ⟨0, ⟨0, 13, [2], [0, 1]⟩, []⟩ count
      ⟨0, ⟨0, 14, [2], [0, 1]⟩, []⟩) ∧
    (Engine.mk Program.fib.module 2).EndsAlone ⟨0, ⟨0, 9, [3], [2]⟩, []⟩ 0 [2]
      (.faulted (.trapped (.callDepthExceeded 1) "fib" 9)) ∧
    (Engine.mk Program.fib.module 2).Ends ((Engine.mk Program.fib.module 2).call 0 [3])
      (.faulted (.trapped (.callDepthExceeded 2) "fib" 9)) := by
  constructor
  · have passes : (Engine.mk Program.fib.module 10).Passes
        ((Engine.mk Program.fib.module 10).call 0 [2]) ⟨0, ⟨0, 13, [2], [0, 1]⟩, []⟩ :=
      ⟨_, 17, rfl, rfl⟩
    have calls : (Engine.mk Program.fib.module 10).Calls ⟨0, ⟨0, 13, [2], [0, 1]⟩, []⟩ 0
        (.ofCode "fib" 1 Program.fibCode) [0] [1] := ⟨rfl, rfl, rfl, rfl, by decide⟩
    exact (calls_answer_as_alone passes calls).completes [0] ⟨7, {}, rfl⟩
  · have passes : (Engine.mk Program.fib.module 2).Passes
        ((Engine.mk Program.fib.module 2).call 0 [3]) ⟨0, ⟨0, 9, [3], [2]⟩, []⟩ := ⟨_, 7, rfl, rfl⟩
    have calls : (Engine.mk Program.fib.module 2).Calls ⟨0, ⟨0, 9, [3], [2]⟩, []⟩ 0
        (.ofCode "fib" 1 Program.fibCode) [2] [] := ⟨rfl, rfl, rfl, rfl, by decide⟩
    have alone : (Engine.mk Program.fib.module 2).EndsAlone ⟨0, ⟨0, 9, [3], [2]⟩, []⟩ 0 [2]
        (.faulted (.trapped (.callDepthExceeded 1) "fib" 9)) := ⟨8, {}, rfl⟩
    rcases (calls_answer_as_alone passes calls).faults _ alone with ⟨_, _, _, same, ends⟩
    cases same
    exact ⟨alone, ends⟩

end Engine

end Ferry
