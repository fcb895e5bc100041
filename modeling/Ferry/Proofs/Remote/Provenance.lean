import Ferry.Proofs.Engine.Ending
import Ferry.Proofs.Remote.Ownership
import Mathlib.Data.List.Induction

/-!
# Where a run of a remote host comes from

The session has the id of the run that was begun last. While this run works, every other computation
is refused, so nothing takes its id away; what its invocation returns is then what the engine makes of
the snapshot with which it began. And the phase after a hand-over says exactly that: a run under the
id of the session has paused, its snapshot has left the host, and nothing was taken over since.
-/

namespace Ferry.Remote

variable {origin host next : Remote} {event : Event} {call : Option Call}

/-- In the course of a host something has happened, and since then a condition has held in every
step. -/
inductive Since (origin : Remote)
    (happened : List Event → Remote → Event → Remote → Option Call → Prop)
    (holds : Remote → Event → Remote → Prop) : List Event → Remote → Prop where
  | now {events : List Event} {before after : Remote} {event : Event} {call : Option Call}
      (course : origin.follow events = some before) (stepped : before.step event = some (after, call))
      (happens : happened events before event after call) :
      Since origin happened holds (events ++ [event]) after
  | still {events : List Event} {before after : Remote} {event : Event} {call : Option Call}
      (since : Since origin happened holds events before)
      (stepped : before.step event = some (after, call)) (holding : holds before event after) :
      Since origin happened holds (events ++ [event]) after

/-- What holds at first, and what every step of a course keeps up, holds at its end. -/
theorem follow_induction {holds : List Event → Remote → Prop} {events : List Event}
    (followed : origin.follow events = some host) (at_first : holds [] origin)
    (kept : ∀ events before event after call, origin.follow events = some before →
      holds events before → before.step event = some (after, call) →
      holds (events ++ [event]) after) : holds events host := by
  -- What was before the last event decides, so the induction is on the end of the course.
  induction events using List.reverseRecOn generalizing host with
  | nil =>
      cases followed
      exact at_first
  | append_singleton earlier event ih =>
      rw [follow_append] at followed
      obtain ⟨before, course, followed⟩ := Option.bind_eq_some_iff.mp followed
      obtain ⟨⟨after, call⟩, stepped, last⟩ := Option.bind_eq_some_iff.mp followed
      cases last
      exact kept earlier before event after call course (ih course) stepped

/-- What an invocation of the engine returns: the record of a machine on its course, or the outcome to
which it comes undisturbed. -/
inductive Returns (config : Config) (snapshot : Option Snapshot) : Outcome Fault → Prop where
  | paused {machine : Machine}
      (passes : config.engine.Passes (Host.invoke config snapshot) machine) :
      Returns config snapshot (.paused machine.record)
  | ended {outcome : Outcome Fault}
      (ends : config.engine.Ends (Host.invoke config snapshot) outcome) :
      Returns config snapshot outcome

/-- What a run that works has made of the snapshot with which it began. -/
inductive Stage.StemsFrom (config : Config) (snapshot : Option Snapshot) : Stage → Prop where
  | spawned : StemsFrom config snapshot (.spawned snapshot)
  | invoking {guard : Nat} {invocation : Invocation}
      (passes : config.engine.Passes (Host.invoke config snapshot) invocation.machine) :
      StemsFrom config snapshot (.invoking guard invocation)
  | returned {outcome : Outcome Fault} (returns : Returns config snapshot outcome) :
      StemsFrom config snapshot (.returned outcome)

theorem Stage.Next.stemsFrom {config : Config} {snapshot : Option Snapshot} {before after : Stage}
    (onward : before.Next config after) (stems : before.StemsFrom config snapshot) :
    after.StemsFrom config snapshot := by
  cases onward with
  | begins invoked =>
      cases stems
      apply StemsFrom.invoking
      rw [invoked]
      exact Engine.passes_begun _
  | fails invoked =>
      cases stems
      exact .returned (.ended (Engine.ends_iff.mpr (.inl ⟨_, invoked, rfl⟩)))
  | goes goes =>
      cases stems with
      | invoking passes => exact .invoking (passes.next goes)
  | pauses =>
      cases stems with
      | invoking passes => exact .returned (.paused passes)
  | ends ended =>
      cases stems with
      | invoking passes =>
          exact .returned (.ended (Engine.ends_iff.mpr (.inr ⟨_, passes, ended⟩)))

/-- A run begins, and the session has an id. -/
structure Begins (run : Nat) (id : SessionId) (snapshot : Option Snapshot) (_ : List Event)
    (before : Remote) (_ : Event) (after : Remote) (_ : Option Call) : Prop where
  added : after.runs = before.runs ++ [⟨run, .spawned snapshot⟩]
  session : after.session.id = id

/-- After a step a computation with an id is active. -/
structure Occupied (id : SessionId) (_ : Remote) (_ : Event) (after : Remote) : Prop where
  active : after.session.phase.isActive = true
  session : after.session.id = id

/-- A run has begun with a snapshot, under an id, and since then this computation has been active. -/
def Underway (origin : Remote) (run : Nat) (id : SessionId) (snapshot : Option Snapshot) :
    List Event → Remote → Prop :=
  Since origin (Begins run id snapshot) (Occupied id)

/-- The invocation of a run that is under way has returned. -/
inductive Ran (origin : Remote) (run : Nat) (id : SessionId) (outcome : Outcome Fault)
    (events : List Event) (host : Remote) : Prop where
  | intro {snapshot : Option Snapshot} (underway : Underway origin run id snapshot events host)
      (stands : host.stage? run = some (.returned outcome))
      (returns : Returns host.config snapshot outcome) : Ran origin run id outcome events host

/-- A run under an id has paused, and hands its snapshot to the peer; the host keeps none. -/
inductive HandsOver (origin : Remote) (id : SessionId) (events : List Event) (before : Remote)
    (event : Event) (after : Remote) (call : Option Call) : Prop where
  | intro {run : Nat} {snapshot : Snapshot} (settles : event = .settle run)
      (ran : Ran origin run id (.paused snapshot) events before)
      (sent : call = some (.execute (.resume id before.config.program.name snapshot)))
      (released : after.held = []) (transmitted : after.session.phase = .transmitted)
      (session : after.session.id = id) : HandsOver origin id events before event after call

/-- A computation stays away in a step: nothing is taken over. -/
structure StaysAway (id : SessionId) (before : Remote) (event : Event) (after : Remote) : Prop where
  nothing : ∀ request, event = .execute request → (before.takeOver request).1 ≠ .ok ⟨true⟩
  transmitted : after.session.phase = .transmitted
  session : after.session.id = id

/-- A computation was handed over, and nothing was taken over since. -/
def HandedOver (origin : Remote) (id : SessionId) : List Event → Remote → Prop :=
  Since origin (HandsOver origin id) (StaysAway id)

/-- What the session and the runs of a host say about its course. -/
structure Traced (origin : Remote) (events : List Event) (host : Remote) : Prop where
  orderly : host.Orderly
  working : ∀ run stage, host.stage? run = some stage → stage.isWorking = true →
    ∃ snapshot, Underway origin run host.session.id snapshot events host ∧
      stage.StemsFrom host.config snapshot
  transmitted : host.session.phase = .transmitted →
    HandedOver origin host.session.id events host

namespace Traced

variable {events : List Event}

theorem ran (traced : Traced origin events host) {run : Nat} {outcome : Outcome Fault}
    (stands : host.stage? run = some (.returned outcome)) :
    Ran origin run host.session.id outcome events host := by
  obtain ⟨snapshot, underway, stems⟩ := traced.working run _ stands rfl
  cases stems with
  | returned returns => exact .intro underway stands returns

/-- A run that works after a step has begun in it, or it has been at work and gets on. -/
theorem working_step (traced : Traced origin events host) (course : origin.follow events = some host)
    (stepped : host.step event = some (next, call)) {run : Nat} {stage : Stage}
    (stands : next.stage? run = some stage) (works : stage.isWorking = true) :
    ∃ snapshot, Underway origin run next.session.id snapshot (events ++ [event]) next ∧
      stage.StemsFrom next.config snapshot := by
  have moves := moves_of_step stepped
  have active := (moves.orderly traced.orderly).balanced.active run stage stands works
  -- A run that was at work keeps the session busy, and with that its id.
  have worked : ∀ before, host.stage? run = some before → before.isWorking = true →
      ∃ snapshot, Underway origin run next.session.id snapshot (events ++ [event]) next ∧
        before.StemsFrom host.config snapshot := by
    intro before stood busy
    obtain ⟨snapshot, underway, stems⟩ := traced.working run before stood busy
    have same_id := moves.id_of_isActive (traced.orderly.balanced.active run before stood busy)
    rw [same_id]
    exact ⟨snapshot, .still underway stepped ⟨active, same_id⟩, stems⟩
  rw [moves.config_eq]
  rcases moves.stage_cases traced.orderly.numbered stands with stood | arises
  · exact worked stage stood works
  · cases arises with
    | added added _ => exact ⟨_, .now course stepped ⟨added, rfl⟩, .spawned⟩
    | works stood onward =>
        obtain ⟨snapshot, underway, stems⟩ := worked _ stood onward.works.1
        exact ⟨snapshot, underway, onward.stemsFrom stems⟩
    | hands | tells => contradiction

/-- A session that is transmitted after a step has come to that in it, or was so before. -/
theorem transmitted_step (traced : Traced origin events host)
    (course : origin.follow events = some host) (stepped : host.step event = some (next, call))
    (transmitted : next.session.phase = .transmitted) :
    HandedOver origin next.session.id (events ++ [event]) next := by
  have moves := moves_of_step stepped
  cases moves.session_moves with
  | stays same refused =>
      have nothing : ∀ request, event = .execute request →
          (host.takeOver request).1 ≠ .ok ⟨true⟩ :=
        fun request isEvent accepted => refused request isEvent (takeOver_accepts_iff.mp accepted)
      have earlier := traced.transmitted (same ▸ transmitted)
      rw [← same] at earlier
      exact .still earlier stepped ⟨nothing, transmitted, rfl⟩
  | @receives snapshot edge received =>
      have active := Phase.isActive_phaseOnReceipt snapshot
      rw [← received, transmitted] at active
      contradiction
  | completes _ completed =>
      rw [completed] at transmitted
      cases transmitted
  | hands _ settles returned handed sent =>
      have orderly := moves.orderly traced.orderly
      have inactive : next.session.phase.isActive = false := by rw [transmitted]; rfl
      have released := orderly.held_of_rests (orderly.rests_of_inactive inactive)
      have same_id : next.session.id = host.session.id := by rw [handed]
      rw [same_id]
      exact .now course stepped
        (.intro settles (traced.ran returned) sent released transmitted same_id)

theorem step (traced : Traced origin events host) (course : origin.follow events = some host)
    (stepped : host.step event = some (next, call)) : Traced origin (events ++ [event]) next where
  orderly := (moves_of_step stepped).orderly traced.orderly
  working _ _ stands works := traced.working_step course stepped stands works
  transmitted transmitted := traced.transmitted_step course stepped transmitted

end Traced

variable {config : Config} {id : SessionId} {directory : Directory}

theorem Traced.ofConfig? (made : ofConfig? config id directory = .ok origin) :
    Traced origin [] origin := by
  obtain ⟨-, runs, -, -, session⟩ := ofConfig?_eq_ok made
  constructor
  case orderly => exact .ofConfig? made
  case working =>
    intro run stage stands
    rw [stage?, runs] at stands
    cases stands
  case transmitted =>
    intro transmitted
    rw [session] at transmitted
    cases transmitted

theorem traced_of_follow (made : ofConfig? config id directory = .ok origin) {events : List Event}
    (followed : origin.follow events = some host) : Traced origin events host :=
  follow_induction followed (.ofConfig? made) fun _ _ _ _ _ course traced stepped =>
    traced.step course stepped

/-- The phase after a hand-over tells that there was one, under the id of the session, and that
nothing was taken over since. -/
theorem handedOver_iff (made : ofConfig? config id directory = .ok origin) {events : List Event}
    (followed : origin.follow events = some host) {session : SessionId} :
    HandedOver origin session events host ↔
      session = host.session.id ∧ host.session.phase = .transmitted := by
  constructor
  · intro handed
    cases handed with
    | now _ _ happens =>
        cases happens with
        | intro _ _ _ _ transmitted same => exact ⟨same.symm, transmitted⟩
    | still _ _ stays => exact ⟨stays.session.symm, stays.transmitted⟩
  · rintro ⟨rfl, transmitted⟩
    exact (traced_of_follow made followed).transmitted transmitted

end Ferry.Remote
