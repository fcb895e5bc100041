import Ferry.Proofs.Host.Fitness
import Ferry.Proofs.Local.Course

/-!
# How an operator gates the invocations of a local host

Under the manual policy no invocation begins without a key of its own. The key that goes on may be
pressed while an invocation is in flight: then the next gate is open, once, however often it was
pressed. Any other gate takes one key. The key that asks for a pause also opens a gate; a call that
it begins pauses before its first instruction, and a continuation after one. A run that the operator
stops, or leaves at a gate, begins no other invocation and writes no file.

A key that is taken when an invocation has passed its last boundary, before the host looks at the
outcome, counts as pressed before that boundary; a request among such keys is withdrawn together
with the guard, so it is as if it had not been pressed.
-/

namespace Ferry.Local

variable {origin host next : Local} {event : Event} {entries : List Entry} {config : Config}
  {id : SessionId} {directory : Directory} {keyboardOpen : Bool} {outcome : Outcome Fault}
  {invocation : Invocation} {pending : Option Snapshot} {count : Nat}

/-- Where a host goes when an invocation has ended, from these files. -/
inductive After (directory : Directory) (host : Local) : Outcome Fault → Prop where
  | completed {results : List Word} (ended : host.stage = .ended (.ok (.completed results))) :
      After directory host (.completed results)
  | faulted {fault : Fault} (ended : host.stage = .ended (.error fault.toFailure)) :
      After directory host (.faulted fault)
  /-- The next gate. -/
  | paused {snapshot : Snapshot} (stays : host.config.exportOnly = false)
      (gate : host.stage = .gate (some snapshot)) : After directory host (.paused snapshot)
  | exported {snapshot : Snapshot} {size : Nat} (leaves : host.config.exportOnly = true)
      (written : SnapshotFile.write directory host.config.exportPath host.config.program.name
        snapshot = (.ok size, host.directory))
      (ended : host.stage = .ended (.ok (.exported host.config.exportPath))) :
      After directory host (.paused snapshot)
  | unwritten {snapshot : Snapshot} {failure : Failure} (leaves : host.config.exportOnly = true)
      (refused : SnapshotFile.write directory host.config.exportPath host.config.program.name
        snapshot = (.error failure, host.directory))
      (ended : host.stage = .ended (.error failure)) : After directory host (.paused snapshot)

theorem Settled.after (settled : host.Settled outcome next)
    (active : host.session.phase.isActive = true) : next.After host.directory outcome := by
  cases settled with
  | completes => exact .completed rfl
  | pauses _ stays => exact .paused stays rfl
  | exports _ leaves written => exact .exported leaves written rfl
  | unwritten _ leaves refused => exact .unwritten leaves refused rfl
  | faults => exact .faulted rfl
  | misfits inactive =>
      rw [active] at inactive
      cases inactive

theorem After.congr (after : host.After directory outcome) (stage : next.stage = host.stage)
    (config : next.config = host.config) (files : next.directory = host.directory) :
    next.After directory outcome := by
  cases after with
  | completed ended => exact .completed (stage.trans ended)
  | faulted ended => exact .faulted (stage.trans ended)
  | paused stays gate =>
      rw [← config] at stays
      exact .paused stays (stage.trans gate)
  | exported leaves written ended =>
      rw [← config] at leaves ended
      rw [← config, ← files] at written
      exact .exported leaves written (stage.trans ended)
  | unwritten leaves refused ended =>
      rw [← config] at leaves
      rw [← config, ← files] at refused
      exact .unwritten leaves refused (stage.trans ended)

/-- After an invocation the host is not in flight. -/
theorem After.not_running (after : host.After directory outcome) {guard : Nat}
    (running : host.stage = .running guard invocation) : False := by
  cases after with
  | paused _ gate => rw [running] at gate; cases gate
  | completed ended | faulted ended | exported _ _ ended | unwritten _ _ ended =>
      rw [running] at ended
      cases ended

/-- Where a host is after an invocation has begun with a request, until another one begins. It has
done something by itself `count` times since. -/
inductive Requested (invocation : Invocation) (directory : Directory) (host : Local) :
    (count : Nat) → Prop where
  /-- The invocation has just begun. -/
  | begun {guard : Nat} (running : host.stage = .running guard invocation)
      (armed : host.controller.signal.armed = true) (untouched : host.directory = directory) :
      Requested invocation directory host 0
  /-- A call pauses before its first instruction. -/
  | pausedAtOnce (calls : invocation.consults = true)
      (after : host.After directory (.paused invocation.machine.record)) :
      Requested invocation directory host 1
  /-- A continuation ends in its first instruction. -/
  | ended {outcome : Outcome Fault} (continues : invocation.consults = false)
      (ended : host.config.engine.end? invocation.machine = some outcome)
      (after : host.After directory outcome) : Requested invocation directory host 1
  /-- A continuation has executed one instruction. -/
  | advanced {guard : Nat} {machine : Machine} (continues : invocation.consults = false)
      (goes : host.config.engine.next? invocation.machine = some machine)
      (running : host.stage = .running guard ⟨machine, true⟩)
      (armed : host.controller.signal.armed = true) (untouched : host.directory = directory) :
      Requested invocation directory host 1
  /-- A continuation pauses before its second instruction. -/
  | paused {machine : Machine} (continues : invocation.consults = false)
      (goes : host.config.engine.next? invocation.machine = some machine)
      (after : host.After directory (.paused machine.record)) :
      Requested invocation directory host 2
  | aborted {count : Nat} (ended : host.stage = .ended (.ok .aborted)) :
      Requested invocation directory host count

/-- After an invocation nothing happens to a host until another one begins, unless the run is
aborted. -/
theorem After.step (after : host.After directory outcome) (orderly : host.Orderly)
    (stepped : host.step event = some next)
    (silent : Entry.begins ⟨host, event, next⟩ = false) :
    next.stage = .ended (.ok .aborted) ∨
      next.After directory outcome ∧ Entry.proceeds ⟨host, event, next⟩ = false := by
  cases moves_of_step stepped with
  | launches gate opens launched =>
      rw [begins_of_launched orderly gate opens launched] at silent
      cases silent
  | goes running | settles running | queues running | requests running =>
      cases after.not_running running
  | aborts => exact .inl rfl
  | closes | elapses => exact .inr ⟨after.congr rfl rfl rfl, by simp [Entry.proceeds]⟩

theorem Requested.step (requested : host.Requested invocation directory count)
    (orderly : host.Orderly) (stepped : host.step event = some next)
    (silent : Entry.begins ⟨host, event, next⟩ = false) :
    next.Requested invocation directory
      (count + (Entry.proceeds ⟨host, event, next⟩).toNat) := by
  -- At a gate and at the end only the keyboard and the clock go on.
  have rests {outcome : Outcome Fault} (after : host.After directory outcome)
      (again : next.After directory outcome → next.Requested invocation directory count) :
      next.Requested invocation directory
        (count + (Entry.proceeds ⟨host, event, next⟩).toNat) := by
    rcases after.step orderly stepped silent with aborted | ⟨after, idle⟩
    · exact .aborted aborted
    · rw [idle]
      exact again after
  have config := (moves_of_step stepped).config_eq
  cases requested with
  | pausedAtOnce calls after => exact rests after (.pausedAtOnce calls)
  | ended continues ended after =>
      refine rests after (.ended continues ?_)
      rwa [config]
  | paused continues goes after =>
      refine rests after (.paused continues ?_)
      rwa [config]
  | aborted ended => exact .aborted (step_of_ended ended stepped).1
  | begun running armed untouched =>
      cases moves_of_step stepped with
      | launches gate =>
          rw [running] at gate
          cases gate
      | goes same quiet goes =>
          rw [running] at same
          cases same
          have continues : invocation.consults = false := by simpa [pauses, armed] using quiet
          exact .advanced continues goes rfl armed untouched
      | settles same ended settled =>
          have active := orderly.running _ _ running
          rw [running] at same
          cases same
          have after := settled.after active
          rw [untouched] at after
          rcases ended with ⟨pauses, rfl⟩ | ⟨quiet, ended⟩
          · exact .pausedAtOnce ((Bool.and_eq_true _ _).mp pauses).1 after
          · have continues : invocation.consults = false := by
              simpa [Local.pauses, armed] using quiet
            rw [← config] at ended
            exact .ended continues ended after
      | aborts => exact .aborted rfl
      | queues => exact .begun running armed untouched
      | requests => exact .begun running rfl untouched
      | closes => exact .begun running armed untouched
      | elapses => exact .begun running (Controller.armed_advance armed _) untouched
  | advanced continues goes running armed untouched =>
      cases moves_of_step stepped with
      | launches gate =>
          rw [running] at gate
          cases gate
      | goes same quiet =>
          rw [running] at same
          cases same
          simp [pauses, armed] at quiet
      | settles same ended settled =>
          have active := orderly.running _ _ running
          rw [running] at same
          cases same
          have after := settled.after active
          rw [untouched] at after
          rcases ended with ⟨-, rfl⟩ | ⟨quiet, -⟩
          · rw [← config] at goes
            exact .paused continues goes after
          · simp [pauses, armed] at quiet
      | aborts => exact .aborted rfl
      | queues => exact .advanced continues goes running armed untouched
      | requests => exact .advanced continues goes running rfl untouched
      | closes => exact .advanced continues goes running armed untouched
      | elapses =>
          exact .advanced continues goes running (Controller.armed_advance armed _) untouched

/-- An event can happen, and it begins an invocation. -/
def Begins (host : Local) (event : Event) : Prop :=
  ∃ next, host.step event = some next ∧ Entry.begins ⟨host, event, next⟩ = true

section Gate

variable (manual : host.config.policy.isManual = true) (gate : host.stage = .gate pending)

include manual gate

end Gate

end Ferry.Local
