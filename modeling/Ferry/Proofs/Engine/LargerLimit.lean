import Ferry.Proofs.Engine.Depth

/-!
# A larger limit

Two engines with the same module and different limits go on alike until a call or a snapshot finds room
under the larger limit only. So a larger limit changes nothing but those ends for which the smaller one
is to blame: wherever the run under the smaller limit ends otherwise, or does not end, the run under the
larger limit does the same at the same boundaries.
-/

namespace Ferry

/-- The ends for which the limit on live activations is to blame: a call found no room, or a snapshot
had too many frames. -/
inductive Outcome.TooDeep : Outcome Fault → Prop where
  | called {limit pc : Nat} {function : String} :
      TooDeep (.faulted (.trapped (.callDepthExceeded limit) function pc))
  | resumed {limit : Nat} : TooDeep (.faulted (.unrestorable (.callDepthExceeded limit)))

variable {limit larger : Nat}

namespace Machine

theorem enterCall_of_le (module : Module) (le : limit ≤ larger) (machine : Machine)
    (callee : UInt32) :
    machine.enterCall module larger callee = machine.enterCall module limit callee ∨
      machine.enterCall module limit callee = .error (.callDepthExceeded limit) := by
  by_cases full : limit ≤ machine.depth
  · right
    rw [enterCall, if_pos full]
  · left
    have room : ¬ larger ≤ machine.depth := fun tooDeep => full (Nat.le_trans le tooDeep)
    rw [enterCall, enterCall, if_neg full, if_neg room]

/-- Only a call asks for the limit, so an instruction runs alike under a larger one, unless it is a call
that finds no room. -/
theorem advance_of_le (module : Module) (le : limit ≤ larger) (machine : Machine) :
    machine.advance module larger = machine.advance module limit ∨
      machine.advance module limit = .error (.callDepthExceeded limit) := by
  simp only [advance, bind, Except.bind]
  cases machine.fetch module with
  | error trap => exact .inl rfl
  | ok instruction =>
      simp only
      cases machine.top.next.execute instruction with
      | error trap => exact .inl rfl
      | ok pair =>
          rcases pair with ⟨effect, top⟩
          cases effect with
          | proceed => exact .inl rfl
          | ret => exact .inl rfl
          | call callee =>
              rcases enterCall_of_le module le { machine with top } callee with
                same | refused
              · exact .inl (by simp only [same])
              · exact .inr (by simp only [refused])

end Machine

theorem Resumption.machine_of_le (le : limit ≤ larger) (resumption : Resumption) (module : Module) :
    resumption.machine module larger = resumption.machine module limit ∨
      resumption.machine module limit = .error (.callDepthExceeded limit) := by
  simp only [machine]
  split
  · exact .inl rfl
  · by_cases tooDeep : limit < resumption.depth
    · exact .inr (if_pos tooDeep)
    · have within : ¬ larger < resumption.depth := fun deeper =>
        tooDeep (Nat.lt_of_le_of_lt le deeper)
      rw [if_neg tooDeep, if_neg within]
      exact .inl rfl

namespace Engine

/-- The engine with another limit. -/
def withLimit (engine : Engine) (limit : Nat) : Engine := { engine with maxCallDepth := limit }

variable {engine : Engine}

theorem begin_withLimit (le : engine.maxCallDepth ≤ larger) (task : Task) :
    (engine.withLimit larger).begin task = engine.begin task ∨
      engine.begin task = .error (.unrestorable (.callDepthExceeded engine.maxCallDepth)) := by
  cases task with
  | call entry arguments => exact .inl rfl
  | resume snapshot =>
      simp only [begin, resume, withLimit]
      cases Resumption.ofSnapshot? snapshot engine.module.size with
      | error refusal => exact .inl rfl
      | ok resumption =>
          rcases resumption.machine_of_le le engine.module with same | refused
          · exact .inl (by simp only [same])
          · exact .inr (by simp only [refused])

theorem advance_withLimit (le : engine.maxCallDepth ≤ larger) (machine : Machine) :
    (engine.withLimit larger).advance machine = engine.advance machine ∨
      ∃ outcome, outcome.TooDeep ∧ engine.advance machine = .ended outcome := by
  rcases Machine.advance_of_le engine.module le machine with same | refused
  · left
    simp only [advance, Machine.step, withLimit, same]
    rfl
  · right
    simp only [advance, Machine.step, refused]
    exact ⟨_, .called, rfl⟩

theorem turn_withLimit (le : engine.maxCallDepth ≤ larger) (signal : Signal)
    (invocation : Invocation) :
    (engine.withLimit larger).turn signal invocation = engine.turn signal invocation ∨
      ∃ outcome, outcome.TooDeep ∧ engine.turn signal invocation = (.ended outcome, signal) := by
  simp only [turn]
  split
  · exact .inl rfl
  · rcases advance_withLimit le invocation.machine with same | ⟨outcome, tooDeep, refused⟩
    · rw [same]
      exact .inl rfl
    · rw [refused]
      exact .inr ⟨outcome, tooDeep, rfl⟩

/-- Boundary by boundary two runs under different limits are alike, as long as the smaller one is not
exceeded. -/
theorem run_withLimit (le : engine.maxCallDepth ≤ larger) (arms : Nat → Bool)
    (fuel boundary : Nat) (signal : Signal) (invocation : Invocation) :
    (engine.withLimit larger).run arms fuel boundary signal invocation =
        engine.run arms fuel boundary signal invocation ∨
      ∃ outcome left, outcome.TooDeep ∧
        engine.run arms fuel boundary signal invocation = some (outcome, left) := by
  induction fuel generalizing boundary signal invocation with
  | zero => exact .inl rfl
  | succ fuel ih =>
      simp only [run]
      rcases turn_withLimit le (signal.armIf (arms boundary)) invocation with
        same | ⟨outcome, tooDeep, refused⟩
      · rw [same]
        rcases engine.turn (signal.armIf (arms boundary)) invocation with ⟨turned, left⟩
        cases turned with
        | going next => exact ih (boundary + 1) left next
        | ended outcome => exact .inl rfl
      · rw [refused]
        exact .inr ⟨outcome, _, tooDeep, rfl⟩

/-- What is played under a larger limit is what is played under the smaller one, unless that one was
exceeded. -/
theorem play_withLimit (le : engine.maxCallDepth ≤ larger) (task : Task) (arms : Nat → Bool)
    (fuel : Nat) (signal : Signal) :
    (engine.withLimit larger).play arms fuel signal ((engine.withLimit larger).begin task) =
        engine.play arms fuel signal (engine.begin task) ∨
      ∃ outcome left, outcome.TooDeep ∧
        engine.play arms fuel signal (engine.begin task) = some (outcome, left) := by
  rcases begin_withLimit le task with same | refused
  · rw [same]
    cases engine.begin task with
    | error fault => exact .inl rfl
    | ok invocation => exact run_withLimit le arms fuel 0 signal invocation
  · rw [refused]
    exact .inr ⟨_, signal, .resumed, rfl⟩

/-- Where the smaller limit is not exceeded, the larger one makes no difference. -/
theorem play_withLimit_eq (le : engine.maxCallDepth ≤ larger) (task : Task) (arms : Nat → Bool)
    (fuel : Nat) (signal : Signal)
    (within : ∀ outcome left,
      engine.play arms fuel signal (engine.begin task) = some (outcome, left) → ¬ outcome.TooDeep) :
    (engine.withLimit larger).play arms fuel signal ((engine.withLimit larger).begin task) =
      engine.play arms fuel signal (engine.begin task) := by
  rcases play_withLimit le task arms fuel signal with same | ⟨outcome, left, tooDeep, exceeded⟩
  · exact same
  · exact absurd tooDeep (within outcome left exceeded)

/-- What becomes of a snapshot under the limit under which it was captured and under a larger one. -/
structure GoesOnAlike (engine : Engine) (larger : Nat) (task : Task) (snapshot : Snapshot) :
    Prop where
  /-- The same machine goes on under both limits. -/
  resumes : ∃ invocation, engine.resume snapshot = .ok invocation ∧
    (engine.withLimit larger).resume snapshot = .ok invocation
  /-- It does the same under both, wherever it does not exceed the smaller one. -/
  continues : ∀ arms fuel signal,
    (∀ outcome left, engine.play arms fuel signal (engine.resume snapshot) = some (outcome, left) →
      ¬ outcome.TooDeep) →
    (engine.withLimit larger).play arms fuel signal ((engine.withLimit larger).resume snapshot) =
      engine.play arms fuel signal (engine.resume snapshot)
  /-- Under the larger limit it comes to the end of the whole task under the smaller one. -/
  ends : engine.module.Addressable → ∀ outcome, engine.Ends (engine.begin task) outcome →
    ¬ outcome.TooDeep →
    (engine.withLimit larger).Ends ((engine.withLimit larger).resume snapshot) outcome

theorem goesOnAlike_of_paused (le : engine.maxCallDepth ≤ larger)
    (limit_pos : 1 ≤ engine.maxCallDepth) {task : Task} {around : Surroundings}
    {snapshot : Snapshot}
    (paused : engine.ComesTo around (engine.begin task) (.paused snapshot)) :
    engine.GoesOnAlike larger task snapshot := by
  rcases passes_of_paused paused with ⟨machine, passes, rfl⟩
  have regular := regular_of_passes limit_pos passes
  constructor
  · have depth_le : machine.depth ≤ larger := Nat.le_trans regular.depth_le le
    exact ⟨_, resume_record_of_depth_le regular.fitsIn regular.depth_le,
      resume_record_of_depth_le regular.fitsIn depth_le⟩
  · exact play_withLimit_eq le (.resume machine.record)
  · intro addressable outcome ends notTooDeep
    obtain ⟨fuel, left, played⟩ := passes.ends_rest ends false
    rw [← resume_record regular addressable] at played
    refine ⟨fuel, left, (play_withLimit_eq le (.resume machine.record) _ _ _ ?_).trans played⟩
    intro other left' exceeded
    rw [begin, played] at exceeded
    cases exceeded
    exact notTooDeep

/-- Whatever an engine is asked to begin, and whatever arms the signal, at no boundary does a larger limit
make a difference, unless the run under the smaller one has ended by then and the limit is to blame. A
snapshot goes on under a larger limit as it does at home. -/
theorem alike_under_larger (engine : Engine) {larger : Nat} (le : engine.maxCallDepth ≤ larger) :
    (∀ task arms fuel signal,
      (∀ outcome left, engine.play arms fuel signal (engine.begin task) = some (outcome, left) →
        ¬ outcome.TooDeep) →
      (engine.withLimit larger).play arms fuel signal ((engine.withLimit larger).begin task) =
        engine.play arms fuel signal (engine.begin task)) ∧
    (1 ≤ engine.maxCallDepth → ∀ task around snapshot,
      engine.ComesTo around (engine.begin task) (.paused snapshot) →
      engine.GoesOnAlike larger task snapshot) := by
  constructor
  · exact play_withLimit_eq le
  · intro limit_pos task around snapshot paused
    exact goesOnAlike_of_paused le limit_pos paused

/-- A call that fits two activations is captured while both are live; under a limit of three its snapshot
leads to the same result. -/
theorem alike_under_larger_fib :
    (Engine.mk Program.fib.module 2).maxCallDepth ≤ 3 ∧
      (Engine.mk Program.fib.module 2).ComesTo { arms := (· == 8) }
        ((Engine.mk Program.fib.module 2).begin (.call 0 [2]))
        (.paused ⟨true, [⟨0, 0, [1], []⟩, ⟨10, 0, [2], []⟩], 0⟩) ∧
      ((Engine.mk Program.fib.module 2).withLimit 3).Ends
        (((Engine.mk Program.fib.module 2).withLimit 3).resume
          ⟨true, [⟨0, 0, [1], []⟩, ⟨10, 0, [2], []⟩], 0⟩) (.completed [1]) ∧
      ((Engine.mk Program.fib.module 2).withLimit 3).play (fun _ => false) 26 {}
          (((Engine.mk Program.fib.module 2).withLimit 3).begin (.call 0 [2])) =
        some (.completed [1], {}) := by
  have le : (Engine.mk Program.fib.module 2).maxCallDepth ≤ 3 := by decide
  have paused : (Engine.mk Program.fib.module 2).ComesTo { arms := (· == 8) }
      ((Engine.mk Program.fib.module 2).begin (.call 0 [2]))
      (.paused ⟨true, [⟨0, 0, [1], []⟩, ⟨10, 0, [2], []⟩], 0⟩) := ⟨9, {}, rfl⟩
  have played : (Engine.mk Program.fib.module 2).play (fun _ => false) 26 {}
      ((Engine.mk Program.fib.module 2).begin (.call 0 [2])) = some (.completed [1], {}) := rfl
  have alike := alike_under_larger _ le
  refine ⟨le, paused, ?_, ?_⟩
  · exact (alike.2 (by decide) _ _ _ paused).ends Program.addressable_fib _ ⟨26, {}, played⟩ nofun
  · refine (alike.1 _ _ _ _ ?_).trans played
    intro outcome left ended
    rw [played] at ended
    cases ended
    nofun

end Engine

end Ferry
