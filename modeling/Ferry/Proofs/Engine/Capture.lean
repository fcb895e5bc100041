import Ferry.Program.Builtin
import Ferry.Proofs.Engine.Course

/-!
# Where an invocation pauses

The signal is consulted before every instruction, except the first one of a resumed invocation. An
invocation therefore pauses at the first boundary that is consulted and at which the signal is
armed, and its snapshot records the machine of the uninterrupted computation at this boundary. If
the computation ends before, the signal plays no part.
-/

namespace Ferry

theorem Program.addressable_fib : Program.fib.module.Addressable := by
  intro function member
  obtain rfl := Array.mem_singleton.mp member
  decide

namespace Signal

/-- The signal as it is consulted at a boundary, if a schedule arms it and nobody takes it. -/
def scheduled (signal : Signal) (arms : Nat → Bool) : (boundary : Nat) → Signal
  | 0 => signal.armIf (arms 0)
  | boundary + 1 => (signal.scheduled arms boundary).armIf (arms (boundary + 1))

/-- The signal right before the schedule looks at a boundary. -/
def unscheduled (signal : Signal) (arms : Nat → Bool) : (boundary : Nat) → Signal
  | 0 => signal
  | boundary + 1 => signal.scheduled arms boundary

theorem armIf_unscheduled (signal : Signal) (arms : Nat → Bool) (boundary : Nat) :
    (signal.unscheduled arms boundary).armIf (arms boundary) = signal.scheduled arms boundary := by
  cases boundary <;> rfl

/-- At none of the boundaries from `first` up to, but not including, `boundary` is the signal
armed. -/
def Quiet (signal : Signal) (arms : Nat → Bool) (first boundary : Nat) : Prop :=
  ∀ earlier, first ≤ earlier → earlier < boundary →
    (signal.scheduled arms earlier).armed = false

theorem Quiet.mono {signal : Signal} {arms : Nat → Bool} {first boundary later : Nat}
    (quiet : signal.Quiet arms first later) (le : boundary ≤ later) :
    signal.Quiet arms first boundary :=
  fun earlier from_first before => quiet earlier from_first (Nat.lt_of_lt_of_le before le)

end Signal

namespace Invocation

/-- The first boundary at which an invocation consults the signal. -/
def firstConsulted (invocation : Invocation) : Nat := if invocation.consults then 0 else 1

theorem firstConsulted_le_one (invocation : Invocation) : invocation.firstConsulted ≤ 1 := by
  rw [firstConsulted]
  split <;> omega

theorem firstConsulted_eq_zero_iff (invocation : Invocation) :
    invocation.firstConsulted = 0 ↔ invocation.consults = true := by
  rw [firstConsulted]
  split <;> simp_all

end Invocation

namespace Engine

variable {engine : Engine} {signal : Signal} {arms : Nat → Bool}

/-- A boundary is where the invocation pauses, because it consults an armed signal, or else where it
runs one instruction, which may be the last one. -/
theorem turn_cases (engine : Engine) (signal : Signal) (invocation : Invocation) :
    (invocation.firstConsulted = 0 ∧ signal.armed = true ∧
      engine.turn signal invocation = (.ended (.paused invocation.machine.record), ⟨false⟩)) ∨
    (∃ next, engine.next? invocation.machine = some next ∧
      engine.turn signal invocation = (.going ⟨next, true⟩, signal)) ∨
    ∃ outcome, engine.end? invocation.machine = some outcome ∧
      engine.turn signal invocation = (.ended outcome, signal) := by
  by_cases stops : (invocation.consults && signal.armed) = true
  · rcases (Bool.and_eq_true _ _).mp stops with ⟨consults, armed⟩
    refine .inl ⟨invocation.firstConsulted_eq_zero_iff.mpr consults, armed, ?_⟩
    rw [turn, if_pos stops, Signal.take]
  · rcases engine.next?_or_end? invocation.machine with ⟨next, goes⟩ | ⟨outcome, ended⟩
    · refine .inr (.inl ⟨next, goes, ?_⟩)
      rw [turn, if_neg stops, next?_eq_some_iff.mp goes]
    · refine .inr (.inr ⟨outcome, ended, ?_⟩)
      rw [turn, if_neg stops, end?_eq_some_iff.mp ended]

/-- Up to a boundary before which it consults no armed signal, an invocation runs one instruction at
each boundary. -/
theorem run_of_quiet {invocation : Invocation} {count : Nat} {machine : Machine}
    (passed : engine.after count invocation.machine = some machine)
    (quiet : signal.Quiet arms invocation.firstConsulted count) (fuel : Nat) :
    engine.run arms (count + fuel) 0 signal invocation =
      engine.run arms fuel count (signal.unscheduled arms count)
        ⟨machine, decide (invocation.firstConsulted ≤ count)⟩ := by
  induction count generalizing machine fuel with
  | zero =>
      cases passed
      rcases invocation with ⟨machine, consults⟩
      cases consults <;> simp [Invocation.firstConsulted, Signal.unscheduled]
  | succ count ih =>
      obtain ⟨between, passes, goes⟩ := Option.bind_eq_some_iff.mp passed
      rw [Nat.add_right_comm, Nat.add_assoc, ih passes (quiet.mono (Nat.le_succ count))]
      have unarmed : (decide (invocation.firstConsulted ≤ count) &&
          (signal.scheduled arms count).armed) = false := by
        by_cases consulted : invocation.firstConsulted ≤ count
        · simp [quiet count consulted (Nat.lt_succ_self count)]
        · simp [consulted]
      have consults : decide (invocation.firstConsulted ≤ count + 1) = true :=
        decide_eq_true (Nat.le_trans invocation.firstConsulted_le_one (Nat.le_add_left 1 count))
      rw [run, turn, Signal.armIf_unscheduled, unarmed, next?_eq_some_iff.mp goes, consults]
      rfl

/-- With no more fuel than it has passed boundaries, an invocation has not ended. -/
theorem run_eq_none_of_quiet {invocation : Invocation} {fuel : Nat} {machine : Machine}
    (passed : engine.after fuel invocation.machine = some machine)
    (quiet : signal.Quiet arms invocation.firstConsulted fuel) :
    engine.run arms fuel 0 signal invocation = none := by
  have run_eq := run_of_quiet passed quiet 0
  rwa [Nat.add_zero, run] at run_eq

/-- What an invocation does at the first boundary that is not quiet decides how it ends. -/
private theorem run_eq_of_turn {invocation : Invocation} {boundary : Nat} {machine : Machine}
    {outcome : Outcome Fault} {left : Signal}
    (passed : engine.after boundary invocation.machine = some machine)
    (quiet : signal.Quiet arms invocation.firstConsulted boundary)
    (turned : engine.turn (signal.scheduled arms boundary)
      ⟨machine, decide (invocation.firstConsulted ≤ boundary)⟩ = (.ended outcome, left))
    (fuel : Nat) :
    engine.run arms fuel 0 signal invocation =
      if boundary < fuel then some (outcome, left) else none := by
  by_cases enough : boundary < fuel
  · rcases Nat.exists_eq_add_of_lt enough with ⟨rest, rfl⟩
    rw [if_pos enough, Nat.add_assoc, run_of_quiet passed quiet, run, Signal.armIf_unscheduled,
      turned]
  · obtain ⟨between, passes⟩ := after_of_le (Nat.not_lt.mp enough) passed
    rw [if_neg enough, run_eq_none_of_quiet passes (quiet.mono (Nat.not_lt.mp enough))]

/-- How an invocation is played that begins with the machine `origin` and consults the signal from
boundary `first` on. -/
structure PlaysExactly (engine : Engine) (signal : Signal) (arms : Nat → Bool)
    (begun : Except Fault Invocation) (origin : Machine) (first : Nat) : Prop where
  /-- It pauses at the first boundary that is consulted and at which the signal is armed. The
  snapshot records the machine that the uninterrupted computation has there, and the signal is
  clear. -/
  pauses : ∀ boundary machine, first ≤ boundary → signal.Quiet arms first boundary →
    (signal.scheduled arms boundary).armed = true → engine.after boundary origin = some machine →
    ∀ fuel, engine.play arms fuel signal begun =
      if boundary < fuel then some (.paused machine.record, ⟨false⟩) else none
  /-- If the computation ends before, this is the outcome, and the signal is as the schedule has
  left it. -/
  ends : ∀ boundary machine outcome, signal.Quiet arms first (boundary + 1) →
    engine.after boundary origin = some machine → engine.end? machine = some outcome →
    ∀ fuel, engine.play arms fuel signal begun =
      if boundary < fuel then some (outcome, signal.scheduled arms boundary) else none
  /-- As long as neither happens there is no outcome. -/
  goesOn : ∀ boundary machine, signal.Quiet arms first boundary →
    engine.after boundary origin = some machine → engine.play arms boundary signal begun = none
  /-- The snapshot of a pause tells everything, because it has room for every offset. -/
  tells : engine.module.Addressable → ∀ boundary machine,
    engine.after boundary origin = some machine → machine.record.Tells machine
  /-- If the signal is armed all along, exactly `first` instructions are executed. -/
  atOnce : ∀ machine, (signal.scheduled arms first).armed = true →
    engine.after first origin = some machine →
    ∀ fuel, engine.play arms fuel signal begun =
      if first < fuel then some (.paused machine.record, ⟨false⟩) else none

/-- Every invocation is played exactly. -/
theorem playsExactly_of_fitsIn {invocation : Invocation}
    (fits : invocation.machine.FitsIn engine.module) :
    engine.PlaysExactly signal arms (.ok invocation) invocation.machine
      invocation.firstConsulted := by
  have pauses : ∀ boundary machine, invocation.firstConsulted ≤ boundary →
      signal.Quiet arms invocation.firstConsulted boundary →
      (signal.scheduled arms boundary).armed = true →
      engine.after boundary invocation.machine = some machine →
      ∀ fuel, engine.play arms fuel signal (.ok invocation) =
        if boundary < fuel then some (.paused machine.record, ⟨false⟩) else none := by
    intro boundary machine consulted quiet armed passed fuel
    apply run_eq_of_turn passed quiet
    simp [turn, consulted, armed, Signal.take]
  refine ⟨pauses, ?_, ?_, ?_, ?_⟩
  · intro boundary machine outcome quiet passed ended fuel
    apply run_eq_of_turn passed (quiet.mono (Nat.le_succ boundary))
    have unarmed : (decide (invocation.firstConsulted ≤ boundary) &&
        (signal.scheduled arms boundary).armed) = false := by
      by_cases consulted : invocation.firstConsulted ≤ boundary
      · simp [quiet boundary consulted (Nat.lt_succ_self boundary)]
      · simp [consulted]
    rw [turn, unarmed, end?_eq_some_iff.mp ended]
    rfl
  · intro boundary machine quiet passed
    exact run_eq_none_of_quiet passed quiet
  · intro addressable boundary machine passed
    exact (addressable.recordable (fitsIn_after fits passed)).tells
  · intro machine armed passed fuel
    refine pauses _ machine (Nat.le_refl _) ?_ armed passed fuel
    intro earlier from_first before
    exact absurd before (Nat.not_lt.mpr from_first)

/-- A call with matching arguments consults the signal at every boundary, and the continuation of a
snapshot at every boundary but the first. -/
theorem captures_exactly (engine : Engine) (signal : Signal) (arms : Nat → Bool) :
    (∀ entry function arguments, engine.module.function? entry = some function →
      arguments.length = function.params.toNat →
      engine.PlaysExactly signal arms (engine.call entry arguments)
        (.start entry function arguments) 0) ∧
    ∀ snapshot invocation, engine.resume snapshot = .ok invocation →
      invocation.machine.record = snapshot ∧
        engine.PlaysExactly signal arms (engine.resume snapshot) invocation.machine 1 := by
  constructor
  · intro entry function arguments found arity
    have called : engine.call entry arguments =
        .ok ⟨.start entry function arguments, true⟩ := by
      simp [call, found, arity]
    rw [called]
    exact playsExactly_of_fitsIn (Machine.fitsIn_start found arity)
  · intro snapshot invocation resumed
    rcases resume_eq_ok_iff.mp resumed with ⟨unconsulted, regular, -, recorded⟩
    rcases invocation with ⟨machine, consults⟩
    cases unconsulted
    rw [resumed]
    exact ⟨recorded, playsExactly_of_fitsIn regular.fitsIn⟩

/-- Armed before its third boundary, a call stops after two instructions; armed at once, the
continuation of its snapshot runs one more. -/
theorem captures_exactly_fib :
    (Engine.mk Program.fib.module 10000).play (· == 2) 3 {}
        ((Engine.mk Program.fib.module 10000).call 0 [9]) =
      some (.paused ⟨true, [⟨2, 0, [9], [9, 2]⟩], 0⟩, ⟨false⟩) ∧
    (Engine.mk Program.fib.module 10000).play (fun _ => false) 2 ⟨true⟩
        ((Engine.mk Program.fib.module 10000).resume ⟨true, [⟨2, 0, [9], [9, 2]⟩], 0⟩) =
      some (.paused ⟨true, [⟨3, 0, [9], [0]⟩], 0⟩, ⟨false⟩) := by
  constructor
  · refine ((captures_exactly ⟨Program.fib.module, 10000⟩ {} (· == 2)).1 0 _ [9] rfl rfl).pauses 2
      ⟨0, ⟨0, 2, [9], [2, 9]⟩, []⟩ (Nat.zero_le _) ?_ rfl rfl 3
    intro earlier _ before
    have cases_earlier : earlier = 0 ∨ earlier = 1 := by omega
    rcases cases_earlier with rfl | rfl <;> rfl
  · exact ((captures_exactly ⟨Program.fib.module, 10000⟩ ⟨true⟩ fun _ => false).2 _
      ⟨⟨0, ⟨0, 2, [9], [2, 9]⟩, []⟩, false⟩ rfl).2.atOnce ⟨0, ⟨0, 3, [9], [0]⟩, []⟩ rfl rfl 2

end Engine

end Ferry
