import Ferry.Proofs.Engine.Capture
import Ferry.Proofs.Host.Failures
import Ferry.Proofs.Remote.Runs
import Ferry.Proofs.Session

/-!
# What one step of a remote host can do

A step belongs to the main loop, to one run, or to the server. The lemmas here list what each of
them changes, and later proofs cite them in place of the definitions.
-/

namespace Ferry.Remote

/-- How a run gets on with its invocation. -/
inductive Stage.Next (config : Config) : Stage → Stage → Prop where
  | begins {snapshot : Option Snapshot} {guard : Nat} {invocation : Invocation}
      (invoked : Host.invoke config snapshot = .ok invocation) :
      Next config (.spawned snapshot) (.invoking guard invocation)
  | fails {snapshot : Option Snapshot} {fault : Fault}
      (invoked : Host.invoke config snapshot = .error fault) :
      Next config (.spawned snapshot) (.returned (.faulted fault))
  | goes {guard : Nat} {invocation : Invocation} {next : Machine}
      (goes : config.engine.next? invocation.machine = some next) :
      Next config (.invoking guard invocation) (.invoking guard ⟨next, true⟩)
  | pauses {guard : Nat} {invocation : Invocation} :
      Next config (.invoking guard invocation) (.returned (.paused invocation.machine.record))
  | ends {guard : Nat} {invocation : Invocation} {outcome : Outcome Fault}
      (ended : config.engine.end? invocation.machine = some outcome) :
      Next config (.invoking guard invocation) (.returned outcome)

/-- What a step does to a host, and the message that leaves it. -/
inductive Moves (host : Remote) : Event → Remote → Option Call → Prop where
  /-- The main loop begins and starts a run. -/
  | starts {initial : Option Snapshot} (starting : host.loop = .starting initial)
      (immediately : host.config.startImmediately = true)
      (edge : host.session.phase.mayBecome (Session.phaseOnReceipt initial) = true) :
      Moves host .begin
        (({ host with
            session := { host.session with phase := Session.phaseOnReceipt initial }
            loop := .waiting } : Remote).spawn initial) none
  /-- The main loop cannot start its run, because a computation was received before. -/
  | startRefused {initial : Option Snapshot} (starting : host.loop = .starting initial)
      (immediately : host.config.startImmediately = true)
      (noEdge : host.session.phase.mayBecome (Session.phaseOnReceipt initial) = false) :
      Moves host .begin
        { host with loop := .ended (.error
            (.invalidState host.session.phase.text (Session.phaseOnReceipt initial).text)) } none
  /-- The main loop begins and waits. -/
  | waits {initial : Option Snapshot} (starting : host.loop = .starting initial)
      (waiting : host.config.startImmediately = false) :
      Moves host .begin { host with loop := .waiting } none
  /-- A run gets on with its invocation. -/
  | works {event : Event} {run : Nat} {before after : Stage} {controller : Controller}
      (stands : host.stage? run = some before) (next : before.Next host.config after)
      (own : event = .invoke run ∨ event = .turn run) :
      Moves host event (({ host with controller } : Remote).setStage run after) none
  /-- A run ends after the host has been shut down, and its outcome is discarded. -/
  | discards {run : Nat} {outcome : Outcome Fault}
      (returned : host.stage? run = some (.returned outcome)) (down : host.shutDown = true) :
      Moves host (.settle run) (host.removeRun run) none
  /-- A run has completed the computation and tells the peer. -/
  | completes {run : Nat} {results : List Word}
      (returned : host.stage? run = some (.returned (.completed results)))
      (up : host.shutDown = false) (active : host.session.phase.isActive = true) :
      Moves host (.settle run)
        (({ host with session := { host.session with phase := .completed } } : Remote).setStage run
          (.telling results))
        (some (.finish ⟨host.session.id⟩))
  /-- A run has paused and hands its snapshot to the peer. -/
  | hands {run : Nat} {snapshot : Snapshot}
      (returned : host.stage? run = some (.returned (.paused snapshot)))
      (up : host.shutDown = false) (active : host.session.phase.isActive = true) :
      Moves host (.settle run)
        (({ host with session := { host.session with
            phase := .transmitted, pending := none } } : Remote).setStage run .handing)
        (some (.execute (.resume host.session.id host.config.program.name snapshot)))
  /-- A run has faulted. -/
  | faults {run : Nat} {fault : Fault}
      (returned : host.stage? run = some (.returned (.faulted fault)))
      (up : host.shutDown = false) :
      Moves host (.settle run) (host.endRun run (.failed fault.toFailure)) none
  /-- A run has an outcome that the session does not expect. -/
  | misfits {run : Nat} {outcome : Outcome Fault} {source target : String}
      (returned : host.stage? run = some (.returned outcome)) (up : host.shutDown = false)
      (inactive : host.session.phase.isActive = false) :
      Moves host (.settle run) (host.endRun run (.failed (.invalidState source target))) none
  /-- The peer has taken over the snapshot of a run. -/
  | relieved {run : Nat} (handing : host.stage? run = some .handing) :
      Moves host (.answer run (.execute (.ok ⟨true⟩))) (host.removeRun run) none
  /-- The peer has not taken over the snapshot of a run, or nobody knows. -/
  | stranded {run : Nat} {reply : Except Peer.Error Peer.ExecuteReply} {failure : Failure}
      (handing : host.stage? run = some .handing) (refused : reply ≠ .ok ⟨true⟩)
      (noFault : ∀ reason, failure ≠ .engineFault reason) (legal : ¬ failure.IsIllegalMove) :
      Moves host (.answer run (.execute reply)) (host.endRun run (.failed failure)) none
  /-- The peer knows of the end. -/
  | acknowledged {run : Nat} {results : List Word}
      (telling : host.stage? run = some (.telling results)) :
      Moves host (.answer run (.finish (.ok ⟨⟩))) (host.endRun run (.completed results)) none
  /-- Nobody knows whether the peer knows of the end. -/
  | unacknowledged {run : Nat} {results : List Word} {error : Peer.Error}
      (telling : host.stage? run = some (.telling results)) :
      Moves host (.answer run (.finish (.error error)))
        (host.endRun run (.failed error.toFailure)) none
  /-- The server takes over a computation. -/
  | accepts {request : Peer.ExecuteRequest}
      (program : request.program = host.config.program.name) (sound : request.check = .ok ())
      (edge : host.session.phase.mayBecome (Session.phaseOnReceipt request.resumable?) = true) :
      Moves host (.execute request)
        (({ host with session := { host.session with
            phase := Session.phaseOnReceipt request.resumable?
            id := request.session
            received := none } } : Remote).spawn request.resumable?) none
  /-- The server refuses a computation. -/
  | declines {request : Peer.ExecuteRequest}
      (refused : (host.takeOver request).1 ≠ .ok ⟨true⟩) :
      Moves host (.execute request) host none
  /-- The server gets notice that the computation that was handed over from here has ended. -/
  | learns {request : Peer.FinishRequest} (same : request.session = host.session.id)
      (transmitted : host.session.phase = .transmitted) :
      Moves host (.finish request) (host.tell .finished) none
  /-- The server gets notice of the end of another computation. -/
  | ignores {request : Peer.FinishRequest}
      (other : ¬ (request.session = host.session.id ∧ host.session.phase = .transmitted)) :
      Moves host (.finish request) host none
  /-- The main loop takes a notice. -/
  | hears {notice : Notice} {rest : List Notice} (waiting : host.loop = .waiting)
      (inbox : host.inbox = notice :: rest) :
      Moves host .notice (({ host with inbox := rest } : Remote).hear notice) none
  /-- The main loop takes notice of a key. -/
  | pressed {action : KeyAction} (waiting : host.loop = .waiting) :
      Moves host (.key action) (host.press action) none
  /-- The time between the notice of the end and the end is over. -/
  | leaves {deadline : Nat} (grace : host.loop = .grace deadline) :
      Moves host .graceOver (host.conclude (.ok .finished)) none
  /-- Time passes. -/
  | elapses {milliseconds : Nat} :
      Moves host (.elapse milliseconds)
        { host with toHost := host.toHost.elapse milliseconds } none

/-- Two states of a host differ at most in the main loop, in what it is told, and in the
controller. -/
structure SameWork (host next : Remote) : Prop where
  config : next.config = host.config
  session : next.session = host.session
  runs : next.runs = host.runs
  spawned : next.spawned = host.spawned

theorem conclude_sameWork (host : Remote) (result : Except Failure Exit) :
    host.SameWork (host.conclude result) := by
  rw [conclude]
  split <;> exact ⟨rfl, rfl, rfl, rfl⟩

theorem hear_sameWork (host : Remote) (rest : List Notice) (notice : Notice) :
    host.SameWork (({ host with inbox := rest } : Remote).hear notice) := by
  cases notice with
  | completed results =>
      obtain ⟨config, session, runs, spawned⟩ :=
        conclude_sameWork { host with inbox := rest } (.ok (.completed results))
      exact ⟨config, session, runs, spawned⟩
  | finished => exact ⟨rfl, rfl, rfl, rfl⟩
  | failed failure =>
      obtain ⟨config, session, runs, spawned⟩ :=
        conclude_sameWork { host with inbox := rest } (.error failure)
      exact ⟨config, session, runs, spawned⟩

theorem press_sameWork (host : Remote) (action : KeyAction) : host.SameWork (host.press action) := by
  cases action with
  | abort => exact conclude_sameWork host _
  | snapshotNow => exact ⟨rfl, rfl, rfl, rfl⟩
  | resumeOrRun => exact ⟨rfl, rfl, rfl, rfl⟩

theorem conclude_inbox (host : Remote) (result : Except Failure Exit) :
    (host.conclude result).inbox = host.inbox := by
  rw [conclude]
  split <;> rfl

theorem conclude_loop (host : Remote) (result : Except Failure Exit) :
    (host.conclude result).loop = .ended result := by
  rw [conclude]
  split <;> rfl

theorem hear_inbox (host : Remote) (notice : Notice) : (host.hear notice).inbox = host.inbox := by
  cases notice with
  | completed results => exact conclude_inbox host _
  | finished => rfl
  | failed failure => exact conclude_inbox host _

theorem press_inbox (host : Remote) (action : KeyAction) : (host.press action).inbox = host.inbox := by
  cases action with
  | abort => exact conclude_inbox host _
  | snapshotNow => rfl
  | resumeOrRun => rfl

variable {host next : Remote} {call : Option Call}

theorem beginLoop_moves {initial : Option Snapshot} (starting : host.loop = .starting initial) :
    host.Moves .begin (host.beginLoop initial) none := by
  rw [beginLoop]
  by_cases immediately : host.config.startImmediately = true
  · rw [if_pos immediately, Host.enterRun]
    cases moved : host.session.moveTo (Session.phaseOnReceipt initial) with
    | error failure =>
        rcases Session.moveTo_eq_error moved with ⟨noEdge, rfl⟩
        exact .startRefused starting immediately noEdge
    | ok session =>
        rcases Session.moveTo_eq_ok_iff.mp moved with ⟨edge, rfl⟩
        exact .starts starting immediately edge
  · rw [if_neg immediately]
    exact .waits starting (Bool.eq_false_iff.mpr immediately)

theorem beginInvocation_moves {run : Nat} {snapshot : Option Snapshot}
    (spawned : host.stage? run = some (.spawned snapshot)) :
    host.Moves (.invoke run) (host.beginInvocation run snapshot) none := by
  simp only [beginInvocation]
  cases invoked : Host.invoke host.config snapshot with
  | ok invocation => exact .works spawned (.begins invoked) (.inl rfl)
  | error fault => exact .works spawned (.fails invoked) (.inl rfl)

theorem turnRun_moves {run guard : Nat} {invocation : Invocation}
    (invoking : host.stage? run = some (.invoking guard invocation)) :
    host.Moves (.turn run) (host.turnRun run guard invocation) none := by
  simp only [turnRun, Host.turn]
  rcases host.config.engine.turn_cases host.controller.signal invocation with
    ⟨-, -, turned⟩ | ⟨next, goes, turned⟩ | ⟨outcome, ended, turned⟩
  · rw [turned]
    exact .works invoking .pauses (.inr rfl)
  · rw [turned]
    exact .works invoking (.goes goes) (.inr rfl)
  · rw [turned]
    exact .works invoking (.ends ended) (.inr rfl)

/-- A pause is handed over exactly if a computation is active; the snapshot does not stay in the
session. -/
theorem handOver_eq_ok_iff {session : Session} {snapshot : Snapshot}
    {result : Option Snapshot × Session} :
    handOver session snapshot = .ok result ↔
      session.phase.isActive = true ∧
        result = (some snapshot, { session with phase := .transmitted, pending := none }) := by
  rw [handOver, bind_eq_ok_iff]
  constructor
  · rintro ⟨paused, isPaused, taken⟩
    rcases Session.pause_eq_ok_iff.mp isPaused with ⟨edge, rfl⟩
    cases taken
    exact ⟨(Phase.mayBecome_paused_iff _).mp edge, rfl⟩
  · rintro ⟨active, rfl⟩
    exact ⟨_, Session.pause_eq_ok_iff.mpr ⟨(Phase.mayBecome_paused_iff _).mpr active, rfl⟩, rfl⟩

theorem handOver_eq_error {session : Session} {snapshot : Snapshot} {failure : Failure}
    (refused : handOver session snapshot = .error failure) :
    session.phase.isActive = false ∧ ∃ source target, failure = .invalidState source target := by
  by_cases active : session.phase.isActive = true
  · rw [handOver_eq_ok_iff.mpr ⟨active, rfl⟩] at refused
    contradiction
  · have noEdge : session.phase.mayBecome .paused = false := by
      rw [← Bool.not_eq_true, Phase.mayBecome_paused_iff]
      exact active
    rw [handOver, Session.pause_of_noEdge snapshot noEdge] at refused
    cases refused
    exact ⟨Bool.eq_false_iff.mpr active, _, _, rfl⟩

theorem settleRun_moves {run : Nat} {outcome : Outcome Fault}
    (returned : host.stage? run = some (.returned outcome)) :
    host.Moves (.settle run) (host.settleRun run outcome).1 (host.settleRun run outcome).2 := by
  rw [settleRun.eq_def]
  by_cases down : host.shutDown = true
  · rw [if_pos down]
    exact .discards returned down
  · rw [if_neg down]
    have up : host.shutDown = false := Bool.eq_false_iff.mpr down
    cases outcome with
    | completed results =>
        cases moved : host.session.moveTo .completed with
        | error failure =>
            rcases Session.moveTo_eq_error moved with ⟨noEdge, rfl⟩
            have inactive : host.session.phase.isActive = false := by
              rw [← Bool.not_eq_true, ← Phase.mayBecome_completed_iff, noEdge]
              exact Bool.false_ne_true
            exact .misfits returned up inactive
        | ok session =>
            rcases Session.moveTo_eq_ok_iff.mp moved with ⟨edge, rfl⟩
            exact .completes returned up ((Phase.mayBecome_completed_iff _).mp edge)
    | paused snapshot =>
        cases handed : handOver host.session snapshot with
        | error failure =>
            rcases handOver_eq_error handed with ⟨inactive, source, target, rfl⟩
            simp only [handed]
            exact .misfits returned up inactive
        | ok result =>
            rcases handOver_eq_ok_iff.mp handed with ⟨active, rfl⟩
            simp only [handed]
            exact .hands returned up active
    | faulted fault => exact .faults returned up

theorem toFailure_ne_engineFault (error : Peer.Error) (reason : String) :
    error.toFailure ≠ .engineFault reason := by
  cases error <;> simp [Peer.Error.toFailure]

theorem answerRun_moves {run : Nat} {stage : Stage} {answer : Answer}
    (stands : host.stage? run = some stage) (answered : host.answerRun run stage answer = some next) :
    host.Moves (.answer run answer) next none := by
  unfold answerRun at answered
  split at answered
  · rename_i reply
    rcases reply with ⟨taken⟩
    cases taken with
    | true =>
        cases answered
        exact .relieved stands
    | false =>
        cases answered
        exact .stranded stands (by simp) (by simp) (by simp [Failure.IsIllegalMove])
  · rename_i error
    cases answered
    exact .stranded stands (by simp) (fun reason => toFailure_ne_engineFault error reason)
      error.not_isIllegalMove
  · cases answered
    exact .acknowledged stands
  · cases answered
    exact .unacknowledged stands
  · contradiction

/-- What makes a host take over a computation: it belongs to the program of the host, its snapshot is
well formed, and an edge leads from the phase of the session to that of its run. -/
structure Takes (host : Remote) (request : Peer.ExecuteRequest) : Prop where
  program : request.program = host.config.program.name
  sound : request.check = .ok ()
  edge : host.session.phase.mayBecome (Session.phaseOnReceipt request.resumable?) = true

theorem takeOver_of_takes {request : Peer.ExecuteRequest} (takes : host.Takes request) :
    host.takeOver request =
      (.ok ⟨true⟩, ({ host with session := { host.session with
        phase := Session.phaseOnReceipt request.resumable?
        id := request.session
        received := none } } : Remote).spawn request.resumable?) := by
  obtain ⟨inactive, unended⟩ := Phase.resting_of_mayBecome takes.edge
  have received : host.session.receive request.session request.resumable? =
      .ok { host.session with
        phase := Session.phaseOnReceipt request.resumable?
        id := request.session
        received := request.resumable? } := Session.receive_eq_ok_iff.mpr ⟨takes.edge, rfl⟩
  rw [takeOver, if_neg (not_not_intro takes.program), takes.sound]
  simp only [inactive, unended, received]
  rfl

/-- How a computation is not taken over. -/
inductive Declined (host : Remote) (request : Peer.ExecuteRequest) :
    Except Failure Peer.ExecuteReply → Prop where
  | foreign (other : request.program ≠ host.config.program.name) : Declined host request (.ok ⟨false⟩)
  | malformed {failure : Failure} (own : request.program = host.config.program.name)
      (refused : request.check = .error failure) : Declined host request (.error failure)
  | busy (own : request.program = host.config.program.name) (sound : request.check = .ok ())
      (closed : host.session.phase.isActive = true ∨ host.session.phase.isTerminal = true) :
      Declined host request (.ok ⟨false⟩)
  | edgeless (own : request.program = host.config.program.name) (sound : request.check = .ok ())
      (free : ¬ (host.session.phase.isActive = true ∨ host.session.phase.isTerminal = true))
      (noEdge : host.session.phase.mayBecome (Session.phaseOnReceipt request.resumable?) = false) :
      Declined host request
        (.error (.invalidState host.session.phase.text
          (Session.phaseOnReceipt request.resumable?).text))

theorem Declined.ne_accepted {request : Peer.ExecuteRequest}
    {answer : Except Failure Peer.ExecuteReply} (declined : host.Declined request answer) :
    answer ≠ .ok ⟨true⟩ := by
  cases declined <;> simp

theorem takeOver_declined {request : Peer.ExecuteRequest} (refused : ¬ host.Takes request) :
    host.Declined request (host.takeOver request).1 ∧ (host.takeOver request).2 = host := by
  rw [takeOver]
  by_cases own : request.program = host.config.program.name
  · rw [if_neg (not_not_intro own)]
    cases sound : request.check with
    | error failure => exact ⟨.malformed own sound, rfl⟩
    | ok _ =>
        have noEdge : host.session.phase.mayBecome
            (Session.phaseOnReceipt request.resumable?) = false :=
          Bool.eq_false_iff.mpr fun edge => refused ⟨own, sound, edge⟩
        by_cases closed : host.session.phase.isActive = true ∨ host.session.phase.isTerminal = true
        · simp only [closed, if_true]
          exact ⟨.busy own sound closed, trivial⟩
        · simp only [closed, if_false, Session.receive_of_noEdge request.session noEdge]
          exact ⟨.edgeless own sound closed noEdge, trivial⟩
  · rw [if_pos own]
    exact ⟨.foreign own, rfl⟩

theorem takeOver_of_not_takes {request : Peer.ExecuteRequest} (refused : ¬ host.Takes request) :
    (host.takeOver request).1 ≠ .ok ⟨true⟩ ∧ (host.takeOver request).2 = host :=
  ⟨(takeOver_declined refused).1.ne_accepted, (takeOver_declined refused).2⟩

/-- A computation is taken over exactly under these conditions. -/
theorem takeOver_accepts_iff {request : Peer.ExecuteRequest} :
    (host.takeOver request).1 = .ok ⟨true⟩ ↔ host.Takes request := by
  constructor
  · intro accepted
    by_cases takes : host.Takes request
    · exact takes
    · exact absurd accepted (takeOver_of_not_takes takes).1
  · intro takes
    rw [takeOver_of_takes takes]

theorem takeOver_moves (host : Remote) (request : Peer.ExecuteRequest) :
    host.Moves (.execute request) (host.takeOver request).2 none := by
  by_cases takes : host.Takes request
  · rw [takeOver_of_takes takes]
    exact .accepts takes.program takes.sound takes.edge
  · rw [(takeOver_of_not_takes takes).2]
    exact .declines (takeOver_of_not_takes takes).1

theorem takeNotice_moves (host : Remote) (request : Peer.FinishRequest) :
    host.Moves (.finish request) (host.takeNotice request).2 none := by
  rw [takeNotice]
  by_cases same : request.session = host.session.id ∧ host.session.phase = .transmitted
  · rw [if_pos same]
    exact .learns same.1 same.2
  · rw [if_neg same]
    exact .ignores same

/-- A notice is acknowledged whatever it tells of. -/
theorem takeNotice_fst (host : Remote) (request : Peer.FinishRequest) :
    (host.takeNotice request).1 = .ok ⟨⟩ := by
  rw [takeNotice]
  split <;> rfl

theorem takeNotice_session (host : Remote) (request : Peer.FinishRequest) :
    (host.takeNotice request).2.session = host.session := by
  rw [takeNotice]
  split <;> rfl

/-- A step is one of the moves. -/
theorem moves_of_step {event : Event} (stepped : host.step event = some (next, call)) :
    host.Moves event next call := by
  cases event with
  | begin =>
      simp only [step] at stepped
      split at stepped
      · rename_i starting
        cases stepped
        exact beginLoop_moves starting
      · contradiction
  | invoke run =>
      simp only [step] at stepped
      split at stepped
      · rename_i spawned
        cases stepped
        exact beginInvocation_moves spawned
      · contradiction
  | turn run =>
      simp only [step] at stepped
      split at stepped
      · rename_i invoking
        cases stepped
        exact turnRun_moves invoking
      · contradiction
  | settle run =>
      simp only [step] at stepped
      split at stepped
      · rename_i returned
        have moves := settleRun_moves returned
        rw [Option.some.inj stepped] at moves
        exact moves
      · contradiction
  | answer run answer =>
      simp only [step] at stepped
      split at stepped
      · rename_i stands
        obtain ⟨answered, isAnswered, same⟩ := Option.map_eq_some_iff.mp stepped
        cases same
        exact answerRun_moves stands isAnswered
      · contradiction
  | execute request =>
      simp only [step] at stepped
      split at stepped
      · cases stepped
        exact takeOver_moves host request
      · contradiction
  | finish request =>
      simp only [step] at stepped
      split at stepped
      · cases stepped
        exact takeNotice_moves host request
      · contradiction
  | notice =>
      simp only [step] at stepped
      split at stepped
      · rename_i waiting inbox
        cases stepped
        exact .hears waiting inbox
      · contradiction
  | key action =>
      simp only [step] at stepped
      split at stepped
      · rename_i waiting
        cases stepped
        exact .pressed waiting
      · contradiction
  | graceOver =>
      simp only [step] at stepped
      split at stepped
      · rename_i grace
        split at stepped
        · cases stepped
          exact .leaves grace
        · contradiction
      · contradiction
  | elapse milliseconds =>
      cases stepped
      exact .elapses

/-- A host keeps its configuration. -/
theorem Moves.config_eq {event : Event} (moves : host.Moves event next call) :
    next.config = host.config := by
  cases moves with
  | hears => exact (hear_sameWork _ _ _).config
  | pressed => exact (press_sameWork _ _).config
  | leaves => exact (conclude_sameWork _ _).config
  | _ => rfl

end Ferry.Remote
