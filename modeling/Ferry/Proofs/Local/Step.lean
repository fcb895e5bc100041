import Ferry.Host.Local
import Ferry.Proofs.Engine.Capture
import Ferry.Proofs.Host.Failures
import Ferry.Proofs.Session

/-!
# What one step of a local host can do

At a gate a host launches an invocation, in an invocation it passes a boundary, and the outcome of
the invocation leads to the next gate or to the end. The lemmas here list these cases. The phase of
the session goes along: a gate stands before anything ran or after a pause, and an invocation is in
flight exactly in an active phase, so every move that is asked for is legal.
-/

namespace Ferry.Local

/-- What opens the gate at which a host stands, and the host that then launches its next
invocation. -/
inductive Opens (host : Local) : Event → Local → Prop where
  /-- Under its policy the host does not wait. -/
  | free (unguarded : host.config.policy.isManual = false) : Opens host .proceed host
  /-- The gate was opened in advance. -/
  | queued (guarded : host.config.policy.isManual = true) (queued : host.queued = true) :
      Opens host .proceed { host with queued := false }
  /-- The operator opens it. -/
  | resumes (guarded : host.config.policy.isManual = true) (waits : host.queued = false)
      (present : host.keyboardOpen = true) : Opens host (.key .resumeOrRun) host
  /-- The operator opens it and asks for a pause. -/
  | requests (guarded : host.config.policy.isManual = true) (waits : host.queued = false)
      (present : host.keyboardOpen = true) :
      Opens host (.key .snapshotNow) { host with toHost := host.toHost.request }

/-- Where a host goes when it launches an invocation. -/
inductive Launched (host : Local) (pending : Option Snapshot) : Local → Prop where
  /-- The invocation begins. -/
  | begins {invocation : Invocation}
      (edge : host.session.phase.mayBecome (Session.phaseOnReceipt pending) = true)
      (invoked : Host.invoke host.config pending = .ok invocation) :
      Launched host pending
        { host with
          session := { host.session with phase := Session.phaseOnReceipt pending }
          controller := host.controller.beginRun.2
          stage := .running host.controller.beginRun.1 invocation }
  /-- The invocation cannot begin. -/
  | fails {fault : Fault}
      (edge : host.session.phase.mayBecome (Session.phaseOnReceipt pending) = true)
      (invoked : Host.invoke host.config pending = .error fault) :
      Launched host pending
        { host with
          session := { host.session with phase := Session.phaseOnReceipt pending }
          controller := (host.controller.beginRun.2.drop host.controller.beginRun.1).2
          stage := .ended (.error fault.toFailure) }
  /-- The session does not allow it. -/
  | misfits {failure : Failure}
      (noEdge : host.session.phase.mayBecome (Session.phaseOnReceipt pending) = false) :
      Launched host pending { host with stage := .ended (.error failure) }

/-- Where a host goes when its invocation has ended. -/
inductive Settled (host : Local) : Outcome Fault → Local → Prop where
  /-- The computation has returned its results. -/
  | completes {results : List Word} (active : host.session.phase.isActive = true) :
      Settled host (.completed results)
        { host with
          session := { host.session with phase := .completed }
          stage := .ended (.ok (.completed results)) }
  /-- The pause leads back to the gate. -/
  | pauses {snapshot : Snapshot} (active : host.session.phase.isActive = true)
      (goesOn : host.config.exportOnly = false) :
      Settled host (.paused snapshot)
        { host with
          session := { host.session with phase := .paused, pending := none }
          stage := .gate (some snapshot) }
  /-- The pause leads to a file and the end. -/
  | exports {snapshot : Snapshot} {size : Nat} {directory : Directory}
      (active : host.session.phase.isActive = true) (leaves : host.config.exportOnly = true)
      (written : SnapshotFile.write host.directory host.config.exportPath host.config.program.name
        snapshot = (.ok size, directory)) :
      Settled host (.paused snapshot)
        { host with
          session := { host.session with phase := .exported, pending := none }
          directory
          stage := .ended (.ok (.exported host.config.exportPath)) }
  /-- The pause leads to a file that cannot be written. -/
  | unwritten {snapshot : Snapshot} {failure : Failure} {directory : Directory}
      (active : host.session.phase.isActive = true) (leaves : host.config.exportOnly = true)
      (refused : SnapshotFile.write host.directory host.config.exportPath host.config.program.name
        snapshot = (.error failure, directory)) :
      Settled host (.paused snapshot)
        { host with
          session := { host.session with phase := .paused, pending := none }
          directory
          stage := .ended (.error failure) }
  /-- The computation cannot go on. -/
  | faults {fault : Fault} :
      Settled host (.faulted fault) { host with stage := .ended (.error fault.toFailure) }
  /-- The session does not expect the outcome. -/
  | misfits {outcome : Outcome Fault} {failure : Failure}
      (inactive : host.session.phase.isActive = false) :
      Settled host outcome { host with stage := .ended (.error failure) }

/-- Whether an invocation pauses at its next boundary: it consults the signal, and the signal is
armed. -/
def pauses (host : Local) (invocation : Invocation) : Bool :=
  invocation.consults && host.controller.signal.armed

/-- What a step does to a host. -/
inductive Moves (host : Local) : Event → Local → Prop where
  /-- The gate opens, and the host leaves it. -/
  | launches {event : Event} {pending : Option Snapshot} {opened next : Local}
      (gate : host.stage = .gate pending) (opens : host.Opens event opened)
      (launched : opened.Launched pending next) : Moves host event next
  /-- The invocation goes on. -/
  | goes {guard : Nat} {invocation : Invocation} {machine : Machine}
      (running : host.stage = .running guard invocation) (quiet : host.pauses invocation = false)
      (goes : host.config.engine.next? invocation.machine = some machine) :
      Moves host .proceed { host with stage := .running guard ⟨machine, true⟩ }
  /-- The invocation ends, and its guard is dropped. -/
  | settles {guard : Nat} {invocation : Invocation} {outcome : Outcome Fault} {left : Signal}
      {next : Local} (running : host.stage = .running guard invocation)
      (ended : host.pauses invocation = true ∧ outcome = .paused invocation.machine.record ∨
        host.pauses invocation = false ∧
          host.config.engine.end? invocation.machine = some outcome)
      (settled : ({ host with
        controller := ({ host.controller with signal := left }.drop guard).2 } : Local).Settled
          outcome next) :
      Moves host .proceed next
  /-- The operator ends the run, or nobody is left to open the gate. -/
  | aborts {event : Event} {controller : Controller}
      (cause : event = .key .abort ∨
        host.config.policy.isManual = true ∧ host.keyboardOpen = false) :
      Moves host event { host with controller, stage := .ended (.ok .aborted) }
  /-- The operator opens the next gate in advance. -/
  | queues {guard : Nat} {invocation : Invocation}
      (running : host.stage = .running guard invocation) :
      Moves host (.key .resumeOrRun) { host with queued := true }
  /-- The operator asks for a pause. -/
  | requests {guard : Nat} {invocation : Invocation}
      (running : host.stage = .running guard invocation) :
      Moves host (.key .snapshotNow) { host with toHost := host.toHost.request }
  /-- The keyboard closes. -/
  | closes : Moves host .closeKeyboard { host with keyboardOpen := false }
  /-- Time passes. -/
  | elapses {milliseconds : Nat} :
      Moves host (.elapse milliseconds) { host with toHost := host.toHost.elapse milliseconds }

variable {host next : Local} {event : Event}

theorem launch_launched (host : Local) (pending : Option Snapshot) :
    host.Launched pending (host.launch pending) := by
  rw [launch, Host.enterRun]
  cases moved : host.session.moveTo (Session.phaseOnReceipt pending) with
  | error failure => exact .misfits (Session.moveTo_eq_error moved).1
  | ok session =>
      rcases Session.moveTo_eq_ok_iff.mp moved with ⟨edge, rfl⟩
      simp only [bind, Except.bind]
      cases invoked : Host.invoke host.config pending with
      | ok invocation => exact .begins edge invoked
      | error fault => exact .fails edge invoked

private theorem exportSnapshot_settled {snapshot : Snapshot}
    (active : host.session.phase.isActive = true) (leaves : host.config.exportOnly = true) :
    host.Settled (.paused snapshot)
      (({ host with session := { host.session with
          phase := .paused, pending := none } } : Local).exportSnapshot snapshot) := by
  simp only [exportSnapshot]
  cases written : SnapshotFile.write host.directory host.config.exportPath
      host.config.program.name snapshot with
  | mk result directory =>
      cases result with
      | error failure => exact .unwritten active leaves written
      | ok size => exact .exports active leaves written

theorem settle_settled (host : Local) (outcome : Outcome Fault) :
    host.Settled outcome (host.settle outcome) := by
  cases outcome with
  | completed results =>
      rw [settle]
      cases moved : host.session.moveTo .completed with
      | error failure =>
          have inactive : host.session.phase.isActive = false := by
            rw [← Bool.not_eq_true, ← Phase.mayBecome_completed_iff,
              (Session.moveTo_eq_error moved).1]
            exact Bool.false_ne_true
          exact .misfits inactive
      | ok session =>
          rcases Session.moveTo_eq_ok_iff.mp moved with ⟨edge, rfl⟩
          exact .completes ((Phase.mayBecome_completed_iff _).mp edge)
  | paused snapshot =>
      rw [settle]
      cases paused : host.session.pause snapshot with
      | error failure =>
          have inactive : host.session.phase.isActive = false := by
            rw [← Bool.not_eq_true, ← Phase.mayBecome_paused_iff]
            intro edge
            rw [Session.pause_eq_ok_iff.mpr ⟨edge, rfl⟩] at paused
            cases paused
          exact .misfits inactive
      | ok session =>
          rcases Session.pause_eq_ok_iff.mp paused with ⟨edge, rfl⟩
          have active := (Phase.mayBecome_paused_iff _).mp edge
          cases leaves : host.config.exportOnly with
          | false =>
              simp only [Session.takePending, leaves]
              exact .pauses active leaves
          | true =>
              simp only [Session.takePending, leaves]
              exact exportSnapshot_settled active leaves
  | faulted fault => exact .faults

private theorem turn_moves {guard : Nat} {invocation : Invocation}
    (running : host.stage = .running guard invocation) :
    host.Moves .proceed (host.turn guard invocation) := by
  simp only [turn, Host.turn, Engine.turn]
  by_cases pauses : (invocation.consults && host.controller.signal.armed) = true
  · rw [if_pos pauses]
    exact .settles running (.inl ⟨pauses, rfl⟩) (settle_settled _ _)
  · have quiet : host.pauses invocation = false := Bool.eq_false_iff.mpr pauses
    rw [if_neg pauses]
    rcases host.config.engine.next?_or_end? invocation.machine with
      ⟨machine, goes⟩ | ⟨outcome, ended⟩
    · rw [Engine.next?_eq_some_iff.mp goes]
      exact .goes running quiet goes
    · rw [Engine.end?_eq_some_iff.mp ended]
      exact .settles running (.inr ⟨quiet, ended⟩) (settle_settled _ _)

private theorem proceed_moves (stepped : host.proceed = some next) :
    host.Moves .proceed next := by
  rw [proceed] at stepped
  split at stepped
  · rename_i pending gate
    split at stepped
    · rename_i unguarded
      cases stepped
      exact .launches gate (.free (Bool.eq_false_iff.mpr unguarded)) (launch_launched host pending)
    · rename_i guarded
      have guarded := Decidable.not_not.mp guarded
      split at stepped
      · rename_i queued
        cases stepped
        exact .launches gate (.queued guarded queued) (launch_launched _ pending)
      · split at stepped
        · cases stepped
        · rename_i gone
          cases stepped
          exact .aborts (.inr ⟨guarded, Bool.eq_false_iff.mpr gone⟩)
  · rename_i running
    cases stepped
    exact turn_moves running
  · cases stepped

private theorem press_moves {action : KeyAction} (present : host.keyboardOpen = true)
    (stepped : host.press action = some next) : host.Moves (.key action) next := by
  rw [press] at stepped
  split at stepped
  · rename_i pending gate
    split at stepped
    · rename_i waits
      have waits := And.intro waits.1 (Bool.eq_false_iff.mpr waits.2)
      cases action with
      | resumeOrRun =>
          cases stepped
          exact .launches gate (.resumes waits.1 waits.2 present) (launch_launched host pending)
      | snapshotNow =>
          cases stepped
          exact .launches gate (.requests waits.1 waits.2 present) (launch_launched _ pending)
      | abort =>
          cases stepped
          exact .aborts (.inl rfl)
    · cases stepped
  · rename_i running
    cases action with
    | resumeOrRun =>
        cases stepped
        exact .queues running
    | snapshotNow =>
        cases stepped
        exact .requests running
    | abort =>
        cases stepped
        exact .aborts (.inl rfl)
  · cases stepped

/-- A step is one of the moves. -/
theorem moves_of_step (stepped : host.step event = some next) : host.Moves event next := by
  cases event with
  | proceed => exact proceed_moves stepped
  | key action =>
      rw [step] at stepped
      split at stepped
      · rename_i present
        exact press_moves present stepped
      · cases stepped
  | closeKeyboard =>
      rw [step] at stepped
      split at stepped
      · cases stepped
        exact .closes
      · cases stepped
  | elapse milliseconds =>
      cases stepped
      exact .elapses

theorem Launched.config_eq {pending : Option Snapshot} (launched : host.Launched pending next) :
    next.config = host.config := by
  cases launched <;> rfl

theorem Settled.config_eq {outcome : Outcome Fault} (settled : host.Settled outcome next) :
    next.config = host.config := by
  cases settled <;> rfl

theorem Moves.config_eq (moves : host.Moves event next) : next.config = host.config := by
  cases moves with
  | launches _ opens launched => cases opens <;> exact launched.config_eq
  | settles _ _ settled => exact settled.config_eq
  | goes | aborts | queues | requests | closes | elapses => rfl

/-- The keyboard stays as it is until it closes. -/
theorem Moves.keyboardOpen_eq (moves : host.Moves event next) (stays : event ≠ .closeKeyboard) :
    next.keyboardOpen = host.keyboardOpen := by
  cases moves with
  | launches _ opens launched => cases opens <;> cases launched <;> rfl
  | settles _ _ settled => cases settled <;> rfl
  | goes | aborts | queues | requests | elapses => rfl
  | closes => contradiction

/-- The phase goes along with what the host is about. -/
structure Orderly (host : Local) : Prop where
  gate : ∀ pending, host.stage = .gate pending →
    host.session.phase = .idle ∨ host.session.phase = .paused ∧ pending.isSome = true
  running : ∀ guard invocation, host.stage = .running guard invocation →
    host.session.phase.isActive = true
  ended : ∀ failure, host.stage = .ended (.error failure) → ¬ failure.IsIllegalMove

/-- A session that is idle, or paused with a record to go on from, may begin an invocation. -/
theorem mayLaunch_of_free {pending : Option Snapshot}
    (free : host.session.phase = .idle ∨ host.session.phase = .paused ∧ pending.isSome = true) :
    host.session.phase.mayBecome (Session.phaseOnReceipt pending) = true :=
  (Phase.mayBecome_phaseOnReceipt_iff _ _).mpr (free.imp_right .inr)

theorem Launched.orderly {pending : Option Snapshot} (launched : host.Launched pending next)
    (free : host.session.phase = .idle ∨
      host.session.phase = .paused ∧ pending.isSome = true) : next.Orderly := by
  cases launched with
  | begins =>
      exact ⟨by simp, fun _ _ _ => Phase.isActive_phaseOnReceipt pending, by simp⟩
  | @fails fault =>
      refine ⟨by simp, by simp, ?_⟩
      intro failure same
      cases same
      exact fault.not_isIllegalMove
  | misfits noEdge => exact absurd (mayLaunch_of_free free) (ne_true_of_eq_false noEdge)

theorem Settled.orderly {outcome : Outcome Fault} (settled : host.Settled outcome next)
    (active : host.session.phase.isActive = true) : next.Orderly := by
  cases settled with
  | completes | exports => exact ⟨by simp, by simp, by simp⟩
  | pauses =>
      refine ⟨?_, by simp, by simp⟩
      intro pending same
      cases same
      exact .inr ⟨rfl, rfl⟩
  | unwritten _ _ refused =>
      refine ⟨by simp, by simp, ?_⟩
      intro failure same
      cases same
      exact SnapshotFile.not_isIllegalMove_of_write refused
  | @faults fault =>
      refine ⟨by simp, by simp, ?_⟩
      intro failure same
      cases same
      exact fault.not_isIllegalMove
  | misfits inactive =>
      rw [active] at inactive
      contradiction

/-- Every step keeps the order. -/
theorem Moves.orderly (moves : host.Moves event next) (orderly : host.Orderly) : next.Orderly := by
  cases moves with
  | launches gate opens launched =>
      apply launched.orderly
      cases opens <;> exact orderly.gate _ gate
  | goes running =>
      exact ⟨by simp, fun _ _ _ => orderly.running _ _ running, by simp⟩
  | settles running _ settled => exact settled.orderly (orderly.running _ _ running)
  | aborts => exact ⟨by simp, by simp, by simp⟩
  | queues | requests | closes | elapses => exact ⟨orderly.gate, orderly.running, orderly.ended⟩

/-- What holds at first, and what every step keeps up, holds after all of a course. -/
theorem run_induction {holds : Local → Prop} {later : Local} {events : List Event}
    (course : host.run events = some later) (at_first : holds host)
    (kept : ∀ before event after, holds before → before.Moves event after → holds after) :
    holds later := by
  induction events generalizing host with
  | nil =>
      cases course
      exact at_first
  | cons event rest ih =>
      obtain ⟨next, stepped, course⟩ := Option.bind_eq_some_iff.mp course
      exact ih course (kept host event next at_first (moves_of_step stepped))

theorem stage_start {host : Host} {directory : Directory} {pending : Option Snapshot}
    (loaded : Host.loadInitial host.config directory = .ok pending) (keyboardOpen : Bool) :
    (start host directory keyboardOpen).stage = .gate pending := by
  simp [start, loaded]

/-- A local host stands before its first gate, or has ended because there is nothing to start
from. -/
theorem Orderly.start {host : Host} (idle : host.session.phase = .idle) (directory : Directory)
    (keyboardOpen : Bool) : (Local.start host directory keyboardOpen).Orderly := by
  simp only [Local.start]
  cases loaded : Host.loadInitial host.config directory with
  | ok initial => exact ⟨fun _ _ => .inl idle, by simp, by simp⟩
  | error failure =>
      refine ⟨by simp, by simp, ?_⟩
      intro other same
      cases same
      exact Host.not_isIllegalMove_of_loadInitial loaded

theorem Orderly.ofConfig? {config : Config} {id : SessionId} {directory : Directory}
    {keyboardOpen : Bool} (made : ofConfig? config id directory keyboardOpen = .ok host) :
    host.Orderly := by
  rw [Local.ofConfig?, bind_eq_ok_iff] at made
  rcases made with ⟨basis, isBasis, made⟩
  rw [Host.ofConfig?, bind_eq_ok_iff] at isBasis
  rcases isBasis with ⟨caller, -, isBasis⟩
  cases isBasis
  cases made
  exact .start rfl directory keyboardOpen

/-- Whatever happens to a local host, it never ends with an illegal move. -/
theorem not_isIllegalMove_of_result? {config : Config} {id : SessionId} {directory : Directory}
    {keyboardOpen : Bool} (made : ofConfig? config id directory keyboardOpen = .ok host)
    {events : List Event} {later : Local} (course : host.run events = some later)
    {failure : Failure} (result : later.result? = some (.error failure)) :
    ¬ failure.IsIllegalMove := by
  have orderly : later.Orderly :=
    run_induction course (.ofConfig? made) fun _ _ _ orderly moves => moves.orderly orderly
  rw [result?] at result
  split at result
  · rename_i ended
    cases result
    exact orderly.ended failure ended
  · cases result

end Ferry.Local
