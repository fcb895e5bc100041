import Ferry.Program.Builtin
import Ferry.Proofs.Remote.Orderly

/-!
# Which computations a remote host takes over when its end is decided

A notice for the main loop decides the end of a host: the loop takes it sooner or later and ends. The
server goes on meanwhile, and what it takes over then is lost, because the run that begins finds the
host shut down. Whether it takes anything over is told by the phase alone. After its own completion
and after a fault a host refuses everything; but the phase of a computation that was handed over stays
open for its return, also when the peer has told of the end.
-/

namespace Ferry.Remote

variable {host next : Remote} {event : Event} {call : Option Call}

/-- No run works, and the session still counts the computation as active: this is what a fault leaves
behind. -/
structure Stuck (host : Remote) : Prop where
  active : host.session.phase.isActive = true
  idle : ∀ run stage, host.stage? run = some stage → stage.isWorking = false

/-- The occasions on which the main loop is given a notice, and in which phase they leave the
session. -/
inductive Occasion (next : Remote) : Notice → Prop where
  | completed {results : List Word} (phase : next.session.phase = .completed) :
      Occasion next (.completed results)
  | finished (phase : next.session.phase = .transmitted) : Occasion next .finished
  | faulted {fault : Fault} (stuck : next.Stuck) : Occasion next (.failed fault.toFailure)
  | lost {failure : Failure} (noFault : ∀ reason, failure ≠ .engineFault reason)
      (phase : next.session.phase ≠ .idle) : Occasion next (.failed failure)

theorem Moves.occasion (moves : host.Moves event next call) (orderly : host.Orderly)
    {notice : Notice} (told : next.inbox = host.inbox ++ [notice]) : Occasion next notice := by
  have silent : next.inbox.length ≤ host.inbox.length → Occasion next notice := by
    intro le
    rw [told, List.length_append, List.length_singleton] at le
    exact absurd le (Nat.not_succ_le_self _)
  have same_notice : ∀ other, next.inbox = host.inbox ++ [other] → other = notice := by
    intro other tells
    exact List.singleton_inj.mp (List.append_cancel_left (tells.symm.trans told))
  have balanced := orderly.balanced
  cases moves with
  | starts | startRefused | waits | works | discards | completes | hands | relieved | accepts
  | declines | ignores | elapses => exact silent (Nat.le_refl _)
  | faults returned up =>
      obtain rfl := same_notice _ rfl
      exact .faulted ⟨balanced.active _ _ returned rfl, orderly.rests_removeRun returned rfl⟩
  | misfits returned up inactive =>
      rw [balanced.active _ _ returned rfl] at inactive
      contradiction
  | stranded handing refused noFault =>
      obtain rfl := same_notice _ rfl
      exact .lost noFault fun idle => by simp [balanced.idle idle] at handing
  | acknowledged telling =>
      obtain rfl := same_notice _ rfl
      exact .completed (balanced.completed _ _ telling)
  | unacknowledged telling =>
      obtain rfl := same_notice _ rfl
      exact .lost (toFailure_ne_engineFault _) fun idle => by simp [balanced.idle idle] at telling
  | learns same transmitted =>
      obtain rfl := same_notice _ rfl
      exact .finished transmitted
  | @hears notice rest waiting inbox =>
      have shorter : rest.length ≤ host.inbox.length := by
        rw [inbox]
        exact Nat.le_succ _
      exact silent (by rw [hear_inbox]; exact shorter)
  | pressed => exact silent (Nat.le_of_eq (by rw [press_inbox]))
  | leaves => exact silent (Nat.le_of_eq (by rw [conclude_inbox]))

/-- How the phase changes: a computation is received, or one that is active comes to its end here. -/
theorem Moves.phase_cases (moves : host.Moves event next call) :
    next.session.phase = host.session.phase ∨
      (∃ snapshot, host.session.phase.mayBecome (Session.phaseOnReceipt snapshot) = true ∧
        next.session.phase = Session.phaseOnReceipt snapshot) ∨
      host.session.phase.isActive = true ∧
        (next.session.phase = .completed ∨ next.session.phase = .transmitted) := by
  cases moves.session_moves with
  | stays same =>
      rw [same]
      exact .inl rfl
  | receives edge received => exact .inr (.inl ⟨_, edge, received⟩)
  | completes active completed =>
      rw [completed]
      exact .inr (.inr ⟨active, .inl rfl⟩)
  | hands active _ _ handed =>
      rw [handed]
      exact .inr (.inr ⟨active, .inr rfl⟩)

theorem Moves.phase_ne_idle (moves : host.Moves event next call)
    (begun : host.session.phase ≠ .idle) : next.session.phase ≠ .idle := by
  rcases moves.phase_cases with same | ⟨snapshot, edge, received⟩ | ⟨-, ended | ended⟩
  · rw [same]
    exact begun
  · rw [received]
    exact Phase.mayBecome_ne_idle edge
  · rw [ended]
    decide
  · rw [ended]
    decide

theorem Moves.phase_completed (moves : host.Moves event next call)
    (completed : host.session.phase = .completed) : next.session.phase = .completed := by
  rcases moves.phase_cases with same | ⟨snapshot, edge, -⟩ | ⟨active, -⟩
  · rw [same, completed]
  · rw [completed] at edge
    cases snapshot <;> contradiction
  · rw [completed] at active
    contradiction

theorem Stuck.removeRun (stuck : host.Stuck) (run : Nat) : (host.removeRun run).Stuck := by
  constructor
  · exact stuck.active
  · intro other stage stands
    rw [stage?_removeRun] at stands
    split at stands
    · contradiction
    · exact stuck.idle other stage stands

theorem Stuck.of_sameWork (stuck : host.Stuck) (same : host.SameWork next) : next.Stuck := by
  constructor
  · rw [same.session]
    exact stuck.active
  · intro run stage stands
    rw [stage?_congr same.runs] at stands
    exact stuck.idle run stage stands

theorem Moves.stuck (moves : host.Moves event next call) (stuck : host.Stuck) : next.Stuck := by
  have no_work : ∀ run stage, host.stage? run = some stage → stage.isWorking = true → next.Stuck := by
    intro run stage stands works
    rw [stuck.idle run stage stands] at works
    contradiction
  have no_receipt : ∀ snapshot, host.session.phase.mayBecome (Session.phaseOnReceipt snapshot) = true →
      next.Stuck := by
    intro snapshot edge
    rw [Phase.not_mayBecome_of_isActive stuck.active snapshot] at edge
    contradiction
  cases moves with
  | starts starting immediately edge => exact no_receipt _ edge
  | accepts program sound edge => exact no_receipt _ edge
  | works stands next => exact no_work _ _ stands next.works.1
  | discards returned | completes returned | hands returned | faults returned | misfits returned =>
      exact no_work _ _ returned rfl
  | relieved | stranded | acknowledged | unacknowledged =>
      exact (stuck.removeRun _).of_sameWork ⟨rfl, rfl, rfl, rfl⟩
  | startRefused | waits | declines | learns | ignores | elapses =>
      exact stuck.of_sameWork ⟨rfl, rfl, rfl, rfl⟩
  | hears => exact stuck.of_sameWork (hear_sameWork _ _ _)
  | pressed => exact stuck.of_sameWork (press_sameWork _ _)
  | leaves => exact stuck.of_sameWork (conclude_sameWork _ _)

theorem Stuck.refuses (stuck : host.Stuck) (request : Peer.ExecuteRequest) :
    (host.takeOver request).1 ≠ .ok ⟨true⟩ := by
  intro accepted
  have edge := (takeOver_accepts_iff.mp accepted).edge
  rw [Phase.not_mayBecome_of_isActive stuck.active] at edge
  contradiction

/-- Once something was begun, a computation is taken over only in the phase in which the own one was
handed over. -/
theorem takes_iff_of_begun (orderly : host.Orderly) (begun : host.session.phase ≠ .idle)
    (request : Peer.ExecuteRequest) :
    host.Takes request ↔ host.session.phase = .transmitted ∧
      request.program = host.config.program.name ∧ request.check = .ok () := by
  constructor
  · intro takes
    rcases orderly.phase_of_edge takes.edge with idle | transmitted
    · exact absurd idle begun
    · exact ⟨transmitted, takes.program, takes.sound⟩
  · rintro ⟨transmitted, program, sound⟩
    refine ⟨program, sound, (Phase.mayBecome_phaseOnReceipt_iff _ _).mpr (.inr (.inl transmitted))⟩

/-- After a notice the end of the host is decided. From then on it takes over a computation exactly
in the phase in which its own one was handed over. It is never in this phase again after its own
completion or a fault; but it is in this phase when the peer has told of the end, and then takes over
the next computation. -/
theorem takeOver_after_notice {config : Config} {id : SessionId} {directory : Directory}
    {origin before told host : Remote} {event : Event} {call : Option Call} {notice : Notice}
    (made : ofConfig? config id directory = .ok origin) (reached : origin.Reaches before)
    (stepped : before.step event = some (told, call))
    (given : told.inbox = before.inbox ++ [notice]) (later : told.Reaches host)
    (request : Peer.ExecuteRequest) :
    ((host.takeOver request).1 = .ok ⟨true⟩ ↔ host.session.phase = .transmitted ∧
      request.program = host.config.program.name ∧ request.check = .ok ()) ∧
    ((∃ results, notice = .completed results) ∨ (∃ reason, notice = .failed (.engineFault reason)) →
      (host.takeOver request).1 ≠ .ok ⟨true⟩) ∧
    (notice = .finished → request.program = told.config.program.name → request.check = .ok () →
      (told.takeOver request).1 = .ok ⟨true⟩) := by
  have orderly : before.Orderly := (Orderly.ofConfig? made).reaches reached
  have moves := moves_of_step stepped
  have occasion := moves.occasion orderly given
  have orderlyTold := moves.orderly orderly
  have begun : told.session.phase ≠ .idle := by
    cases occasion with
    | completed phase => rw [phase]; decide
    | finished phase => rw [phase]; decide
    | faulted stuck => exact Phase.ne_idle_of_isActive stuck.active
    | lost noFault phase => exact phase
  have begunHere : host.session.phase ≠ .idle :=
    later.induction begun fun _ _ _ _ begun moves => moves.phase_ne_idle begun
  have takes_iff := takes_iff_of_begun (orderlyTold.reaches later) begunHere request
  refine ⟨takeOver_accepts_iff.trans takes_iff, ?_, ?_⟩
  · intro decided accepted
    cases occasion with
    | completed phase =>
        have completed : host.session.phase = .completed :=
          later.induction phase fun _ _ _ _ phase moves => moves.phase_completed phase
        rw [(takes_iff.mp (takeOver_accepts_iff.mp accepted)).1] at completed
        contradiction
    | finished phase =>
        rcases decided with ⟨results, impossible⟩ | ⟨reason, impossible⟩ <;> contradiction
    | faulted stuck =>
        have stuckHere : host.Stuck :=
          later.induction stuck fun _ _ _ _ stuck moves => moves.stuck stuck
        exact stuckHere.refuses request accepted
    | lost noFault phase =>
        rcases decided with ⟨results, impossible⟩ | ⟨reason, same⟩
        · contradiction
        · exact noFault reason (Notice.failed.inj same)
  · rintro rfl program sound
    cases occasion with
    | finished phase =>
        exact takeOver_accepts_iff.mpr
          ((takes_iff_of_begun orderlyTold begun request).mpr ⟨phase, program, sound⟩)

/-- A host that runs one instruction and then hands its snapshot over. -/
def steppingFib : Config where
  program := .fib
  arguments := [9]
  mode := .remote
  peer := some "peer:1"
  listen := "here:1"
  policy := .stepAll
  fromSnapshot := none
  exportOnly := false
  exportPath := "snapshot.bin"
  startImmediately := true
  transportTimeout := 10000
  finishGrace := 500

/-- The id of its computation. -/
def steppingId : SessionId := ⟨List.replicate 16 0, rfl⟩

/-- The peer tells of the end, and the host takes over another computation. -/
theorem takeOver_after_notice_stepping :
    ∃ origin before told, ofConfig? steppingFib steppingId {} = .ok origin ∧
      origin.follow [.begin, .invoke 0, .turn 0, .settle 0] = some before ∧
      before.step (.finish ⟨steppingId⟩) = some (told, none) ∧
      told.inbox = before.inbox ++ [.finished] ∧
      (told.takeOver (.start steppingId "fib")).1 = .ok ⟨true⟩ := by
  have course : ∃ origin before told, ofConfig? steppingFib steppingId {} = .ok origin ∧
      origin.follow [.begin, .invoke 0, .turn 0, .settle 0] = some before ∧
      before.step (.finish ⟨steppingId⟩) = some (told, none) ∧
      told.inbox = before.inbox ++ [.finished] ∧ told.config.program.name = "fib" :=
    ⟨_, _, _, rfl, rfl, rfl, rfl, rfl⟩
  rcases course with ⟨origin, before, told, made, followed, stepped, given, program⟩
  have accepted := (takeOver_after_notice made ⟨_, followed⟩ stepped given ⟨[], rfl⟩
    (.start steppingId "fib")).2.2 rfl program.symm rfl
  exact ⟨origin, before, told, made, followed, stepped, given, accepted⟩

/-- The computation that is taken over then is lost: the host ends while it runs, its snapshot goes
nowhere, and the only run that is left is the one that waits for its reply. -/
theorem finished_then_lost :
    ∃ origin told after, ofConfig? steppingFib steppingId {} = .ok origin ∧
      origin.follow [.begin, .invoke 0, .turn 0, .settle 0, .finish ⟨steppingId⟩] = some told ∧
      told.inbox = [.finished] ∧
      (told.takeOver (.start steppingId "fib")).1 = .ok ⟨true⟩ ∧
      told.follow [.notice, .execute (.start steppingId "fib"), .elapse 500, .graceOver,
        .invoke 1, .turn 1, .settle 1] = some after ∧
      after.result?.bind Except.toOption = some .finished ∧
      after.runs = [⟨0, .handing⟩] ∧ after.inbox = [] :=
  ⟨_, _, _, rfl, rfl, rfl, rfl, rfl, rfl, rfl, rfl⟩

end Ferry.Remote
