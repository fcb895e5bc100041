import Ferry.Proofs.Machine.Trapping

/-!
# A machine on top of waiting activations

An activation sees nothing of those below it. A machine can be put on top of activations that wait,
and there it steps as it does alone, until it returns to the topmost of them. Only the limit on live
activations is felt: there is room for as many fewer activations as wait below.
-/

namespace Ferry

/-- The same trap under another limit on live activations. -/
def Trap.under (limit : Nat) : Trap → Trap
  | .callDepthExceeded _ => .callDepthExceeded limit
  | trap => trap

theorem Activation.Trapped.under {activation : Activation} {instruction : Instruction} {trap : Trap}
    (trapped : activation.Trapped instruction trap) (limit : Nat) : trap.under limit = trap := by
  cases trapped <;> rfl

namespace Machine

/-- The machine on top of activations that wait, in a computation with an entry of its own. -/
def onTopOf (machine : Machine) (entry : UInt32) (below : List Activation) : Machine :=
  ⟨entry, machine.top, machine.callers ++ below⟩

@[simp]
theorem onTopOf_top (machine : Machine) (entry : UInt32) (below : List Activation) :
    (machine.onTopOf entry below).top = machine.top :=
  rfl

@[simp]
theorem onTopOf_depth (machine : Machine) (entry : UInt32) (below : List Activation) :
    (machine.onTopOf entry below).depth = machine.depth + below.length := by
  simp only [onTopOf, depth, List.length_append]
  exact Nat.add_right_comm _ _ _

variable {module : Module} {entry : UInt32} {below : List Activation} {limit own : Nat}

theorem fetch_onTopOf (machine : Machine) :
    (machine.onTopOf entry below).fetch module = machine.fetch module :=
  rfl

theorem under_of_fetch {machine : Machine} {trap : Trap}
    (failed : machine.fetch module = .error trap) (limit : Nat) : trap.under limit = trap := by
  rw [fetch] at failed
  split at failed
  · cases failed
    rfl
  · split at failed <;> cases failed
    rfl

/-- What a run of an instruction is on top of waiting activations. Where the machine halts alone, it
returns there to the topmost of them. -/
def lifted (entry : UInt32) (below : List Activation) (limit : Nat) :
    Except Trap (Machine ⊕ List Word) → Except Trap (Machine ⊕ List Word)
  | .ok (.inl next) => .ok (.inl (next.onTopOf entry below))
  | .ok (.inr values) =>
      match below with
      | [] => .ok (.inr values)
      | caller :: callers => .ok (.inl ⟨entry, caller.pushMany values, callers⟩)
  | .error trap => .error (trap.under limit)

private theorem enterCall_onTopOf (machine : Machine)
    (room : limit ≤ machine.depth + below.length ↔ own ≤ machine.depth) (callee : UInt32) :
    ((machine.onTopOf entry below).enterCall module limit callee >>= fun entered =>
        .ok (.inl entered)) =
      lifted entry below limit
        (machine.enterCall module own callee >>= fun entered => .ok (.inl entered)) := by
  simp only [enterCall, onTopOf_depth, onTopOf_top, room]
  split
  · rfl
  · cases module.function? callee with
    | none => rfl
    | some function =>
        cases popped : machine.top.popMany function.params.toNat with
        | error trap =>
            obtain ⟨-, rfl⟩ := Activation.popMany_eq_error popped
            simp only [popped]
            rfl
        | ok pair =>
            simp only [popped]
            rfl

private theorem leaveCall_onTopOf (machine : Machine) :
    (machine.onTopOf entry below).leaveCall module =
      lifted entry below limit (machine.leaveCall module) := by
  simp only [leaveCall, onTopOf_top]
  cases module.function? machine.top.function with
  | none => rfl
  | some function =>
      cases popped : machine.top.popMany function.results.toNat with
      | error trap =>
          obtain ⟨-, rfl⟩ := Activation.popMany_eq_error popped
          simp only [popped]
          rfl
      | ok pair =>
          simp only [popped]
          rcases machine with ⟨_, top, callers⟩
          cases callers with
          | nil => cases below <;> rfl
          | cons caller callers => rfl

/-- A machine on top of waiting activations runs its instruction as it does alone, if there is room
for another call there exactly when there is room alone. -/
theorem advance_onTopOf (machine : Machine)
    (room : limit ≤ machine.depth + below.length ↔ own ≤ machine.depth) :
    (machine.onTopOf entry below).advance module limit =
      lifted entry below limit (machine.advance module own) := by
  simp only [advance, fetch_onTopOf, onTopOf_top]
  cases fetched : machine.fetch module with
  | error trap => exact congrArg Except.error (under_of_fetch fetched limit).symm
  | ok instruction =>
      cases ran : machine.top.next.execute instruction with
      | error trap =>
          simp only [bind, Except.bind, ran, lifted]
          rw [(Activation.trapped_of_execute ran).under]
      | ok pair =>
          rcases pair with ⟨effect, top⟩
          simp only [bind, Except.bind, ran]
          cases effect with
          | proceed => rfl
          | call callee => exact enterCall_onTopOf { machine with top := top } room callee
          | ret => exact leaveCall_onTopOf { machine with top := top }

theorem step_eq_halted_iff {machine : Machine} {values : List Word} :
    machine.step module limit = .halted values ↔
      machine.advance module limit = .ok (.inr values) := by
  simp only [step]
  split <;> simp_all

variable {machine : Machine}

theorem running_onTopOf (entry : UInt32)
    (room : limit ≤ machine.depth + below.length ↔ own ≤ machine.depth) {next : Machine}
    (stepped : machine.step module own = .running next) :
    (machine.onTopOf entry below).step module limit = .running (next.onTopOf entry below) := by
  apply step_eq_running_iff.mpr
  rw [advance_onTopOf machine room, step_eq_running_iff.mp stepped]
  rfl

theorem halted_onTopOf (entry : UInt32) {caller : Activation} {callers : List Activation}
    (room : limit ≤ machine.depth + (caller :: callers).length ↔ own ≤ machine.depth)
    {values : List Word} (stepped : machine.step module own = .halted values) :
    (machine.onTopOf entry (caller :: callers)).step module limit =
      .running ⟨entry, caller.pushMany values, callers⟩ := by
  apply step_eq_running_iff.mpr
  rw [advance_onTopOf machine room, step_eq_halted_iff.mp stepped]
  rfl

theorem trapped_onTopOf (entry : UInt32)
    (room : limit ≤ machine.depth + below.length ↔ own ≤ machine.depth) {trap : Trap} {site : Site}
    (stepped : machine.step module own = .trapped trap site) :
    (machine.onTopOf entry below).step module limit = .trapped (trap.under limit) site := by
  rcases step_eq_trapped_iff.mp stepped with ⟨failed, rfl⟩
  apply step_eq_trapped_iff.mpr
  rw [advance_onTopOf machine room, failed]
  exact ⟨rfl, rfl⟩

/-- What a machine halts with are the results of the function that was called first. -/
theorem FitsIn.length_of_halted (fits : machine.FitsIn module) {values : List Word}
    (stepped : machine.step module limit = .halted values) {function : Function}
    (found : module.function? machine.entry = some function) :
    values.length = function.results.toNat := by
  obtain ⟨_, _, -, -, advanced⟩ := advanced_of_advance (step_eq_halted_iff.mp stepped)
  cases advanced with
  | @halt other is_ret foundTop enough alone =>
      have same_entry : machine.top.function = machine.entry := by
        have outermost := fits.outermost
        rw [activations, alone] at outermost
        exact Option.some.inj outermost
      rw [same_entry, found] at foundTop
      cases foundTop
      rw [List.length_reverse, List.length_take, Nat.min_eq_left enough]

end Machine

end Ferry
