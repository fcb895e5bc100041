import Ferry.Host.Pair
import Ferry.Proofs.Pair.Computation
import Ferry.Proofs.Remote.Acceptance

/-!
# A host that serves a computation

One of two hosts keeps to its part, whatever happens inside it and whatever its peer sends, as long
as the peer keeps to its own. Copies of the computation are counted by shares: a host that is yet to
begin the computation, works on it or has completed it has one share, and a message that hands the
computation over carries one.
-/

namespace Ferry

/-- The share of a session: one for a computation that is active or completed. -/
def Phase.share : Phase → Nat
  | .running | .resuming | .completed => 1
  | .idle | .paused | .exported | .transmitted => 0

theorem Phase.share_of_isActive {phase : Phase} (active : phase.isActive = true) : phase.share = 1 := by
  cases phase <;> first | rfl | contradiction

theorem Phase.share_phaseOnReceipt (snapshot : Option Snapshot) :
    (Session.phaseOnReceipt snapshot).share = 1 :=
  share_of_isActive (isActive_phaseOnReceipt snapshot)

namespace Remote

/-- The share of the main loop: one if it is yet to begin the computation. -/
def ahead (host : Remote) : Nat :=
  match host.loop with
  | .starting _ => if host.config.startImmediately then 1 else 0
  | _ => 0

/-- The share of a host. -/
def share (host : Remote) : Nat := host.ahead + host.session.phase.share

/-- The share of a message. -/
def Call.share : Call → Nat
  | .execute _ => 1
  | .finish _ => 0

/-- Nothing was said about an end. -/
structure Calm (host : Remote) : Prop where
  inbox : host.inbox = []
  loop : (∃ initial, host.loop = .starting initial) ∨ host.loop = .waiting
  up : host.shutDown = false

/-- The runs, told by their stages, and the session hold the computation, and nothing else. -/
structure Holding (computation : Computation) (config : Config) (stages : Nat → Option Stage)
    (session : Session) : Prop where
  named : session.phase ≠ .idle ∨ config.startImmediately = true → session.id = computation.id
  works : session.phase.isActive = true →
    ∃ run stage, stages run = some stage ∧ stage.isWorking = true
  genuine : ∀ run stage, stages run = some stage → stage.Genuine computation config

/-- What the main loop is told, and what it ends with, is genuine. Nothing is said about an end before
the computation is over. -/
structure Informed (computation : Computation) (settled : Prop) (host : Remote) : Prop where
  notices : ∀ notice ∈ host.inbox, notice.Genuine computation host.session.phase
  loop : host.loop.Genuine computation host.config host.session.phase
  calm : ¬ settled → host.Calm

theorem Informed.settled {computation : Computation} {settled : Prop} {host : Remote}
    (informed : Informed computation settled host) (uneasy : ¬ host.Calm) : settled :=
  Classical.byContradiction fun open_ => uneasy (informed.calm open_)

/-- A host keeps to its part of a computation, which may be over. -/
structure Serves (computation : Computation) (settled : Prop) (host : Remote) : Prop where
  orderly : host.Orderly
  suits : computation.Suits host.config
  holding : Holding computation host.config host.stage? host.session
  informed : Informed computation settled host

variable {computation : Computation} {settled later : Prop} {host next : Remote} {event : Event}
  {call : Option Call}

namespace Holding

variable {config : Config} {stages : Nat → Option Stage} {session after : Session}

/-- A run gets a new stage, or comes to its end, and the session may change. -/
theorem set (holding : Holding computation config stages session) (number : Nat)
    {entry : Option Stage} (genuine : ∀ stage ∈ entry, stage.Genuine computation config)
    (named : after.phase ≠ .idle ∨ config.startImmediately = true → after.id = computation.id)
    (works : after.phase.isActive = true → (∃ stage ∈ entry, stage.isWorking = true) ∨
      session.phase.isActive = true ∧
        ∀ stage, stages number = some stage → stage.isWorking = false) :
    Holding computation config (fun run => if run = number then entry else stages run) after := by
  constructor
  · exact named
  · intro active
    rcases works active with ⟨stage, member, working⟩ | ⟨activeBefore, resting⟩
    · exact ⟨number, stage, by rw [if_pos rfl]; exact member, working⟩
    · rcases holding.works activeBefore with ⟨run, stage, stands, working⟩
      have other : run ≠ number := by
        rintro rfl
        rw [resting stage stands] at working
        contradiction
      exact ⟨run, stage, by rw [if_neg other]; exact stands, working⟩
  · intro run stage stands
    split at stands
    · exact genuine stage stands
    · exact holding.genuine run stage stands

end Holding

/-- Only the runs and the session change, and the main loop may begin to wait. -/
theorem Informed.congr (informed : Informed computation settled host) (weaker : settled → later)
    (config : next.config = host.config) (inbox : next.inbox = host.inbox)
    (loop : next.loop = host.loop ∨ next.loop = .waiting) (down : next.shutDown = host.shutDown)
    (stays : host.session.phase = .completed → next.session.phase = .completed) :
    Informed computation later next := by
  constructor
  · rw [inbox]
    intro notice member
    exact (informed.notices notice member).mono stays
  · rcases loop with same | waiting
    · rw [same, config]
      exact informed.loop.mono stays
    · rw [waiting]
      trivial
  · intro open_
    have calm := informed.calm fun isSettled => open_ (weaker isSettled)
    constructor
    · rw [inbox]
      exact calm.inbox
    · rcases loop with same | waiting
      · rw [same]
        exact calm.loop
      · exact .inr waiting
    · rw [down]
      exact calm.up

/-- What a step inside a host comes to: it serves further, what it sends is genuine, and its share goes
with the message if it hands the computation over. -/
structure Proceeds (computation : Computation) (later : Prop) (host next : Remote)
    (call : Option Call) : Prop where
  serves : next.Serves computation later
  share : next.share + call.elim 0 Call.share = host.share
  genuine : ∀ message ∈ call, message.Genuine computation
  told : ∀ request, call = some (.finish request) → next.session.phase = .completed

namespace Serves

/-- One run gets a new stage, or comes to its end, and the session may change. -/
theorem change (serves : host.Serves computation settled) (orderly : next.Orderly)
    (weaker : settled → later) (config : next.config = host.config) (inbox : next.inbox = host.inbox)
    (loop : next.loop = host.loop ∨ next.loop = .waiting) (down : next.shutDown = host.shutDown)
    (stays : host.session.phase = .completed → next.session.phase = .completed) (number : Nat)
    {entry : Option Stage}
    (stages : next.stage? = fun run => if run = number then entry else host.stage? run)
    (genuine : ∀ stage ∈ entry, stage.Genuine computation host.config)
    (named : next.session.phase ≠ .idle ∨ host.config.startImmediately = true →
      next.session.id = computation.id)
    (works : next.session.phase.isActive = true → (∃ stage ∈ entry, stage.isWorking = true) ∨
      host.session.phase.isActive = true ∧
        ∀ stage, host.stage? number = some stage → stage.isWorking = false) :
    next.Serves computation later := by
  constructor
  · exact orderly
  · rw [config]
    exact serves.suits
  · rw [config, stages]
    exact serves.holding.set number genuine named works
  · exact serves.informed.congr weaker config inbox loop down stays

/-- A run gets on with its invocation. -/
theorem work (serves : host.Serves computation settled) {run : Nat} {before after : Stage}
    {controller : Controller} (stands : host.stage? run = some before)
    (next : before.Next host.config after) :
    (({ host with controller } : Remote).setStage run after).Serves computation settled := by
  have moves : host.Moves (.turn run) (({ host with controller } : Remote).setStage run after) none :=
    .works stands next (.inr rfl)
  apply serves.change (moves.orderly serves.orderly) id
  · rfl
  · rfl
  · exact .inl rfl
  · rfl
  · exact id
  · exact stage?_setStage_of rfl stands _
  · rintro stage ⟨⟩
    exact next.genuine serves.suits (serves.holding.genuine _ _ stands)
  · exact serves.holding.named
  · intro _
    exact .inl ⟨_, rfl, next.works.2⟩

/-- A run that only waited for a reply comes to its end. -/
theorem removeRun (serves : host.Serves computation settled) {run : Nat} {before : Stage}
    (stands : host.stage? run = some before) (resting : before.isWorking = false) :
    (host.removeRun run).Serves computation settled := by
  apply serves.change (serves.orderly.removeRun run) id
  · rfl
  · rfl
  · exact .inl rfl
  · rfl
  · exact id
  · exact funext (stage?_removeRun run)
  · rintro stage ⟨⟩
  · exact serves.holding.named
  · intro active
    refine .inr ⟨active, fun stage stands' => ?_⟩
    rw [stands] at stands'
    cases stands'
    exact resting

/-- A session without a share could receive the computation. -/
theorem idle_or_transmitted (serves : host.Serves computation settled)
    (free : host.session.phase.share = 0) :
    host.session.phase = .idle ∨ host.session.phase = .transmitted := by
  have notPaused := serves.orderly.balanced.notPaused
  have notExported := serves.orderly.balanced.notExported
  cases phase : host.session.phase with
  | idle => exact .inl rfl
  | transmitted => exact .inr rfl
  | paused => exact absurd phase notPaused
  | exported => exact absurd phase notExported
  | running | resuming | completed =>
      rw [phase] at free
      contradiction

/-- The runs and the session stay, and the main loop is told of the end, or comes to it. -/
theorem inform (serves : host.Serves computation settled) (isSettled : settled)
    (same : host.SameWork next)
    (notices : ∀ notice ∈ next.inbox, notice.Genuine computation host.session.phase)
    (loop : next.loop.Genuine computation host.config host.session.phase) :
    next.Serves computation settled := by
  constructor
  · exact serves.orderly.of_sameWork same
  · rw [same.config]
    exact serves.suits
  · rw [same.config, same.session, stage?_congr same.runs]
    exact serves.holding
  · constructor
    · rw [same.session]
      exact notices
    · rw [same.config, same.session]
      exact loop
    · intro open_
      exact absurd isSettled open_

theorem conclude (serves : host.Serves computation settled) (isSettled : settled)
    {result : Except Failure Exit}
    (genuine : (Loop.ended result).Genuine computation host.config host.session.phase) :
    (host.conclude result).Serves computation settled := by
  apply serves.inform isSettled
  · exact conclude_sameWork _ _
  · rw [conclude_inbox]
    exact serves.informed.notices
  · rw [conclude_loop]
    exact genuine

/-- The main loop takes a notice. -/
theorem hear (serves : host.Serves computation settled) (isSettled : settled) {notice : Notice}
    {rest : List Notice} (inbox : host.inbox = notice :: rest) :
    (({ host with inbox := rest } : Remote).hear notice).Serves computation settled := by
  have notices := serves.informed.notices
  rw [inbox] at notices
  obtain ⟨genuine, others⟩ := List.forall_mem_cons.mp notices
  have lighter : ({ host with inbox := rest } : Remote).Serves computation settled := by
    apply serves.inform isSettled
    · exact ⟨rfl, rfl, rfl, rfl⟩
    · exact others
    · exact serves.informed.loop
  cases notice with
  | completed results => exact lighter.conclude isSettled genuine
  | finished =>
      apply lighter.inform isSettled
      · exact ⟨rfl, rfl, rfl, rfl⟩
      · exact others
      · trivial
  | failed failure => exact genuine.elim

theorem mono (serves : host.Serves computation settled) (weaker : settled → later) :
    host.Serves computation later := by
  refine ⟨serves.orderly, serves.suits, serves.holding, ?_⟩
  exact serves.informed.congr weaker rfl rfl (.inl rfl) rfl id

/-- A host that works on the computation has been told nothing about its end. -/
theorem calm_of_active (serves : host.Serves computation settled)
    (notSettled : host.session.phase.isActive = true → ¬ settled) {run : Nat} {stage : Stage}
    (stands : host.stage? run = some stage) (working : stage.isWorking = true) : host.Calm :=
  serves.informed.calm (notSettled (serves.orderly.balanced.active run stage stands working))

/-- A step inside a host that is neither asked by an operator nor the report of a fault. -/
theorem proceeds (serves : host.Serves computation settled) (moves : host.Moves event next call)
    (internal : Pair.isInternal event = true) (noKey : ∀ action, event ≠ .key action)
    (unfaulted : ∀ run fault, host.stage? run ≠ some (.returned (.faulted fault)))
    (share_le : host.share ≤ 1) (notSettled : host.session.phase.isActive = true → ¬ settled)
    (weaker : settled → later) : Proceeds computation later host next call := by
  have orderly := moves.orderly serves.orderly
  have stays := moves.phase_completed
  have calm_of_returned : ∀ run outcome, host.stage? run = some (.returned outcome) → host.Calm :=
    fun run outcome stands => serves.calm_of_active notSettled stands rfl
  cases moves with
  | @starts initial starting immediately edge =>
      have ahead : host.ahead = 1 := by simp [Remote.ahead, starting, immediately]
      have genuine := serves.informed.loop
      rw [starting] at genuine
      refine ⟨?_, ?_, by simp, by simp⟩
      · apply serves.change orderly weaker
        · rfl
        · rfl
        · exact .inr rfl
        · rfl
        · exact stays
        · exact stage?_spawn_of serves.orderly.numbered rfl rfl initial
        · rintro stage ⟨⟩
          exact genuine immediately
        · intro _
          exact serves.holding.named (.inr immediately)
        · intro _
          exact .inl ⟨_, rfl, rfl⟩
      · have phase_share := Phase.share_phaseOnReceipt initial
        simp only [Remote.share, ahead] at share_le ⊢
        simp only [Remote.ahead, spawn, phase_share, Option.elim]
        omega
  | @startRefused initial starting immediately noEdge =>
      have free : host.session.phase.share = 0 := by
        simp only [Remote.share, Remote.ahead, starting, immediately, if_true] at share_le
        omega
      have edge : host.session.phase.mayBecome (Session.phaseOnReceipt initial) = true := by
        rw [Phase.mayBecome_phaseOnReceipt_iff]
        exact (serves.idle_or_transmitted free).imp_right .inl
      rw [noEdge] at edge
      contradiction
  | waits starting waiting =>
      refine ⟨⟨orderly, serves.suits, serves.holding, ?_⟩, ?_, by simp, by simp⟩
      · exact serves.informed.congr weaker rfl rfl (.inr rfl) rfl stays
      · simp [Remote.share, Remote.ahead, starting, waiting]
  | works stands next => exact ⟨(serves.work stands next).mono weaker, rfl, by simp, by simp⟩
  | discards returned down =>
      rw [(calm_of_returned _ _ returned).up] at down
      contradiction
  | @completes run results returned up active =>
      have named := serves.holding.named (.inl (Phase.ne_idle_of_isActive active))
      have yields : computation.Yields results := serves.holding.genuine _ _ returned
      refine ⟨?_, ?_, ?_, fun _ _ => rfl⟩
      · apply serves.change orderly weaker
        · rfl
        · rfl
        · exact .inl rfl
        · rfl
        · exact stays
        · exact stage?_setStage_of rfl returned _
        · rintro stage ⟨⟩
          exact yields
        · intro _
          exact named
        · intro impossible
          contradiction
      · have phase_share := Phase.share_of_isActive active
        simp only [Remote.share, phase_share]
        rfl
      · rintro message ⟨⟩
        exact congrArg Peer.FinishRequest.mk named
  | @hands run snapshot returned up active =>
      have named := serves.holding.named (.inl (Phase.ne_idle_of_isActive active))
      refine ⟨?_, ?_, ?_, by simp⟩
      · apply serves.change orderly weaker
        · rfl
        · rfl
        · exact .inl rfl
        · rfl
        · exact stays
        · exact stage?_setStage_of rfl returned _
        · rintro stage ⟨⟩
          trivial
        · intro _
          exact named
        · intro impossible
          contradiction
      · have phase_share := Phase.share_of_isActive active
        simp only [Remote.share, phase_share]
        rfl
      · rintro message ⟨⟩
        refine ⟨snapshot, serves.holding.genuine _ _ returned, ?_⟩
        rw [named, serves.suits.program]
  | faults returned up => exact absurd returned (unfaulted _ _)
  | misfits returned up inactive =>
      rw [serves.orderly.balanced.active _ _ returned rfl] at inactive
      contradiction
  | @hears notice rest waiting inbox =>
      have isSettled : settled := by
        apply serves.informed.settled
        intro calm
        rw [calm.inbox] at inbox
        contradiction
      have serves' := serves.hear isSettled inbox
      refine ⟨serves'.mono weaker, ?_, by simp, by simp⟩
      cases notice with
      | completed results =>
          simp [Remote.hear, Remote.share, Remote.ahead, conclude_loop,
            (conclude_sameWork _ _).session, waiting]
      | finished => simp [Remote.hear, Remote.share, Remote.ahead, waiting]
      | failed failure =>
          simp [Remote.hear, Remote.share, Remote.ahead, conclude_loop,
            (conclude_sameWork _ _).session, waiting]
  | pressed waiting => exact absurd rfl (noKey _)
  | leaves grace =>
      have isSettled : settled := by
        apply serves.informed.settled
        intro calm
        rcases calm.loop with ⟨initial, loop⟩ | loop <;> rw [loop] at grace <;> contradiction
      have genuine : (Loop.ended (.ok .finished)).Genuine computation host.config
          host.session.phase := trivial
      refine ⟨(serves.conclude isSettled genuine).mono weaker, ?_, by simp, by simp⟩
      simp [Remote.share, Remote.ahead, conclude_loop, (conclude_sameWork _ _).session, grace]
  | elapses =>
      refine ⟨⟨orderly, serves.suits, serves.holding, ?_⟩, rfl, by simp, by simp⟩
      exact serves.informed.congr weaker rfl rfl (.inl rfl) rfl stays
  | relieved | stranded | acknowledged | unacknowledged | accepts | declines | learns | ignores =>
      contradiction

/-- What a genuine hand-over meets where no share of the computation is: it is taken over. -/
theorem takes (serves : host.Serves computation settled) {request : Peer.ExecuteRequest}
    (genuine : (Call.execute request).Genuine computation)
    (free : host.session.phase.share = 0) : host.Takes request := by
  rcases genuine with ⟨snapshot, shows, rfl⟩
  constructor
  · rw [serves.suits.program]
    rfl
  · exact shows.check
  · rw [Phase.mayBecome_phaseOnReceipt_iff]
    exact (serves.idle_or_transmitted free).imp_right .inl

theorem takeOver (serves : host.Serves computation settled) {request : Peer.ExecuteRequest}
    (genuine : (Call.execute request).Genuine computation)
    (free : host.session.phase.share = 0) (weaker : settled → later) :
    (host.takeOver request).2.Serves computation later ∧
      (host.takeOver request).2.share = host.share + 1 := by
  have takes := serves.takes genuine free
  have moves := Moves.accepts takes.program takes.sound takes.edge
  rw [takeOver_of_takes takes]
  rcases genuine with ⟨snapshot, shows, rfl⟩
  have resumable : (Peer.ExecuteRequest.resume computation.id computation.program.name
      snapshot).resumable? = some snapshot := by
    rw [Peer.ExecuteRequest.resumable?, Peer.ExecuteRequest.resume, Option.filter_some,
      if_pos shows.valid]
  rw [resumable] at moves ⊢
  constructor
  · apply serves.change (moves.orderly serves.orderly) weaker
    · rfl
    · rfl
    · exact .inl rfl
    · rfl
    · exact moves.phase_completed
    · exact stage?_spawn_of serves.orderly.numbered rfl rfl (some snapshot)
    · rintro stage ⟨⟩
      exact Stage.genuine_spawned serves.suits shows
    · intro _
      rfl
    · intro _
      exact .inl ⟨_, rfl, rfl⟩
  · rw [Remote.share, Remote.share, free]
    rfl

theorem takeNotice (serves : host.Serves computation settled) (isSettled : settled)
    (request : Peer.FinishRequest) :
    (host.takeNotice request).2.Serves computation settled ∧
      (host.takeNotice request).2.share = host.share := by
  rw [Remote.takeNotice]
  split
  · constructor
    · apply serves.inform isSettled
      · exact ⟨rfl, rfl, rfl, rfl⟩
      · intro notice member
        rcases List.mem_append.mp member with earlier | last
        · exact serves.informed.notices notice earlier
        · rw [List.mem_singleton.mp last]
          trivial
      · exact serves.informed.loop
    · rfl
  · exact ⟨serves, rfl⟩

/-- A run gets a genuine reply. -/
theorem answer (serves : host.Serves computation settled) {run : Nat} {answer : Answer}
    (moves : host.Moves (.answer run answer) next call) (genuine : answer.Genuine)
    (settled_of_completed : host.session.phase = .completed → settled) :
    next.Serves computation settled ∧ next.share = host.share := by
  cases moves with
  | works stands next own => rcases own with impossible | impossible <;> contradiction
  | relieved handing => exact ⟨serves.removeRun handing rfl, rfl⟩
  | stranded handing refused noFault => exact absurd genuine refused
  | @acknowledged run results telling =>
      have completed := serves.orderly.balanced.completed _ _ telling
      have yields : computation.Yields results := serves.holding.genuine _ _ telling
      constructor
      · apply (serves.removeRun telling rfl).inform (settled_of_completed completed)
        · exact ⟨rfl, rfl, rfl, rfl⟩
        · intro notice member
          rcases List.mem_append.mp member with earlier | last
          · exact serves.informed.notices notice earlier
          · rw [List.mem_singleton.mp last]
            exact ⟨yields, completed⟩
        · exact serves.informed.loop
      · rfl
  | unacknowledged telling => contradiction

/-- A run that has completed the computation can tell the peer of it. -/
theorem settles (serves : host.Serves computation settled)
    (notSettled : host.session.phase.isActive = true → ¬ settled) {run : Nat} {results : List Word}
    (returned : host.stage? run = some (.returned (.completed results))) :
    ∃ next, host.step (.settle run) = some (next, some (.finish ⟨computation.id⟩)) ∧
      next.session.phase = .completed := by
  have active := serves.orderly.balanced.active _ _ returned rfl
  have up := (serves.calm_of_active notSettled returned rfl).up
  have moved := Session.moveTo_eq_ok_iff.mpr ⟨(Phase.mayBecome_completed_iff _).mpr active, rfl⟩
  have settles : host.settleRun run (.completed results) =
      (({ host with session := { host.session with phase := .completed } } : Remote).setStage run
        (.telling results), some (.finish ⟨host.session.id⟩)) := by
    simp only [settleRun, up, moved, Bool.false_eq_true, if_false]
  rw [← serves.holding.named (.inl (Phase.ne_idle_of_isActive active))]
  refine ⟨(host.settleRun run (.completed results)).1, ?_, ?_⟩
  · simp only [step, returned, settles]
  · exact congrArg (fun settled => settled.1.session.phase) settles

end Serves

end Remote

end Ferry
