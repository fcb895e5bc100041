import Ferry.Proofs.Remote.Provenance

/-!
# Why a remote host ends

A host that ends without a failure, and not by the operator, has one of two reasons. It was told of the
end of a computation that had been handed over from here and had not come back; or a run of its own
completed the computation, and the peer acknowledged the notice of that. Every other notice of an end
is acknowledged and has no effect.
-/

namespace Ferry.Remote

variable {origin host next : Remote} {event : Event} {call : Option Call}

/-- Something has happened in the course of a host. -/
def Once (origin : Remote)
    (happened : List Event → Remote → Event → Remote → Option Call → Prop) :
    List Event → Remote → Prop :=
  Since origin happened fun _ _ _ => True

/-- The host is told of the end of the computation that was handed over from here. -/
inductive Learns (origin : Remote) (events : List Event) (before : Remote) (event : Event)
    (_ : Remote) (_ : Option Call) : Prop where
  | intro {request : Peer.FinishRequest} (notice : event = .finish request)
      (session : request.session = before.session.id)
      (transmitted : before.session.phase = .transmitted)
      (handedOver : HandedOver origin request.session events before) :
      Learns origin events before event _ _

/-- A run under an id has completed the computation, and tells the peer. -/
inductive Completes (origin : Remote) (run : Nat) (id : SessionId) (results : List Word)
    (events : List Event) (before : Remote) (event : Event) (after : Remote) (call : Option Call) :
    Prop where
  | intro (settles : event = .settle run)
      (ran : Ran origin run id (.completed results) events before)
      (told : call = some (.finish ⟨id⟩)) (completed : after.session.phase = .completed)
      (session : after.session.id = id) (waits : after.stage? run = some (.telling results)) :
      Completes origin run id results events before event after call

/-- After a step a run waits for the reply to its notice. -/
structure Waits (run : Nat) (results : List Word) (_ : Remote) (_ : Event) (after : Remote) :
    Prop where
  completed : after.session.phase = .completed
  waits : after.stage? run = some (.telling results)

/-- A run has completed the computation and told the peer, and has waited for the reply since. -/
def Tells (origin : Remote) (run : Nat) (id : SessionId) (results : List Word) :
    List Event → Remote → Prop :=
  Since origin (Completes origin run id results) (Waits run results)

/-- The peer acknowledges that a run has completed the computation. -/
inductive Acknowledged (origin : Remote) (results : List Word) (events : List Event)
    (before : Remote) (event : Event) (_ : Remote) (_ : Option Call) : Prop where
  | intro {run : Nat} {id : SessionId} (tells : Tells origin run id results events before)
      (answered : event = .answer run (.finish (.ok ⟨⟩))) :
      Acknowledged origin results events before event _ _

/-- There was a reason for a notice; failures are not told apart. -/
def Notice.Founded (origin : Remote) (events : List Event) (host : Remote) : Notice → Prop
  | .completed results => Once origin (Acknowledged origin results) events host
  | .finished => Once origin (Learns origin) events host
  | .failed _ => True

/-- The notice that has led the main loop to where it is, unless it was of a failure. -/
def Loop.notice? : Loop → Option Notice
  | .grace _ | .ended (.ok .finished) => some .finished
  | .ended (.ok (.completed results)) => some (.completed results)
  | _ => none

/-- A notice waits for the main loop, or has led it to where it is. -/
def Knows (host : Remote) (notice : Notice) : Prop :=
  notice ∈ host.inbox ∨ host.loop.notice? = some notice

/-- What a step gives notice of. -/
inductive GivesNotice (host : Remote) (event : Event) : Notice → Prop where
  | completed {run : Nat} {results : List Word}
      (answered : event = .answer run (.finish (.ok ⟨⟩)))
      (telling : host.stage? run = some (.telling results)) :
      GivesNotice host event (.completed results)
  | finished {request : Peer.FinishRequest} (notice : event = .finish request)
      (session : request.session = host.session.id)
      (transmitted : host.session.phase = .transmitted) : GivesNotice host event .finished
  | failed {failure : Failure} : GivesNotice host event (.failed failure)

/-- A notice was known before, or a step has given it. -/
theorem Moves.notice_cases (moves : host.Moves event next call) {notice : Notice}
    (known : next.Knows notice) : host.Knows notice ∨ GivesNotice host event notice := by
  have kept : next.inbox = host.inbox → next.loop.notice? = host.loop.notice? →
      host.Knows notice := by
    intro inbox loop
    rw [Knows, inbox, loop] at known
    exact known
  have told : ∀ other, next.inbox = host.inbox ++ [other] → next.loop = host.loop →
      GivesNotice host event other → host.Knows notice ∨ GivesNotice host event notice := by
    intro other inbox loop gives
    rw [Knows, inbox, loop, List.mem_append, List.mem_singleton] at known
    rcases known with (waiting | rfl) | led
    · exact .inl (.inl waiting)
    · exact .inr gives
    · exact .inl (.inr led)
  have quiet : next.inbox = host.inbox → next.loop.notice? = none → host.Knows notice := by
    intro inbox loop
    rw [Knows, inbox, loop] at known
    exact .inl (known.resolve_right nofun)
  cases moves with
  | works | discards | completes | hands | relieved | accepts | declines | ignores | elapses =>
      exact .inl (kept rfl rfl)
  | starts | startRefused | waits => exact .inl (quiet rfl rfl)
  | faults | misfits | stranded | unacknowledged => exact told _ rfl rfl .failed
  | acknowledged telling => exact told _ rfl rfl (.completed rfl telling)
  | learns same transmitted => exact told _ rfl rfl (.finished rfl same transmitted)
  | @hears heard rest waiting inbox =>
      -- The notice that is taken from the inbox is the one that leads the loop on.
      left
      rw [Knows, hear_inbox] at known
      rcases known with later | led
      · exact .inl (inbox ▸ List.mem_cons_of_mem _ later)
      · have is_heard : notice = heard := by
          cases heard with
          | completed results =>
              rw [hear, conclude_loop] at led
              exact (Option.some.inj led).symm
          | finished => exact (Option.some.inj led).symm
          | failed failure =>
              rw [hear, conclude_loop] at led
              cases led
        rw [Knows, inbox, is_heard]
        exact .inl List.mem_cons_self
  | @pressed action waiting =>
      left
      cases action with
      | abort => exact quiet (conclude_inbox _ _) (by rw [press, conclude_loop]; rfl)
      | snapshotNow | resumeOrRun => exact kept rfl rfl
  | leaves grace =>
      refine .inl (kept (conclude_inbox _ _) ?_)
      rw [conclude_loop, grace]
      rfl

/-- There was a reason for everything that a host knows. -/
structure Grounded (origin : Remote) (events : List Event) (host : Remote) : Prop where
  traced : Traced origin events host
  telling : ∀ run results, host.stage? run = some (.telling results) →
    ∃ id, Tells origin run id results events host
  founded : ∀ notice, host.Knows notice → notice.Founded origin events host

namespace Grounded

variable {events : List Event}

theorem telling_step (grounded : Grounded origin events host)
    (course : origin.follow events = some host) (stepped : host.step event = some (next, call))
    {run : Nat} {results : List Word} (stands : next.stage? run = some (.telling results)) :
    ∃ id, Tells origin run id results (events ++ [event]) next := by
  have moves := moves_of_step stepped
  have orderly := grounded.traced.orderly
  have completed := (moves.orderly orderly).balanced.completed run results stands
  rcases moves.stage_cases orderly.numbered stands with stood | arises
  · obtain ⟨id, tells⟩ := grounded.telling run results stood
    exact ⟨id, .still tells stepped ⟨completed, stands⟩⟩
  · cases arises with
    | tells settles returned moved told =>
        have same_id : next.session.id = host.session.id := by rw [moved]
        exact ⟨_, .now course stepped
          (.intro settles (grounded.traced.ran returned) told completed same_id stands)⟩
    | works _ onward => exact absurd onward.works.2 Bool.false_ne_true

theorem founded_step (grounded : Grounded origin events host)
    (course : origin.follow events = some host) (stepped : host.step event = some (next, call))
    {notice : Notice} (known : next.Knows notice) :
    notice.Founded origin (events ++ [event]) next := by
  rcases (moves_of_step stepped).notice_cases known with earlier | gives
  · have founded := grounded.founded notice earlier
    cases notice with
    | completed | finished => exact .still founded stepped trivial
    | failed => trivial
  · cases gives with
    | completed answered telling =>
        obtain ⟨id, tells⟩ := grounded.telling _ _ telling
        exact .now course stepped (.intro tells answered)
    | finished isNotice session transmitted =>
        have handedOver := grounded.traced.transmitted transmitted
        rw [← session] at handedOver
        exact .now course stepped (.intro isNotice session transmitted handedOver)
    | failed => trivial

theorem step (grounded : Grounded origin events host) (course : origin.follow events = some host)
    (stepped : host.step event = some (next, call)) : Grounded origin (events ++ [event]) next where
  traced := grounded.traced.step course stepped
  telling _ _ stands := grounded.telling_step course stepped stands
  founded _ known := grounded.founded_step course stepped known

end Grounded

variable {config : Config} {id : SessionId} {directory : Directory}

theorem grounded_of_follow (made : ofConfig? config id directory = .ok origin) {events : List Event}
    (followed : origin.follow events = some host) : Grounded origin events host := by
  obtain ⟨-, runs, -, inbox, -⟩ := ofConfig?_eq_ok made
  have no_notice : origin.loop.notice? = none := by
    rcases ofConfig?_loop made with loop | ⟨_, _, loop⟩ | ⟨_, _, loop⟩ <;> rw [loop] <;> rfl
  refine follow_induction followed ⟨.ofConfig? made, ?_, ?_⟩
    fun _ _ _ _ _ course grounded stepped => grounded.step course stepped
  · intro run results stands
    rw [stage?, runs] at stands
    cases stands
  · intro notice known
    rw [Knows, inbox, no_notice] at known
    rcases known with known | known <;> cases known

/-- After a course of events a host has ended for a reason that lies in the course, and it takes
notice of an end for such a reason only. -/
structure ExitsJustified (origin : Remote) (events : List Event) (host : Remote) : Prop where
  finished : host.result? = some (.ok .finished) → Once origin (Learns origin) events host
  completed : ∀ results, host.result? = some (.ok (.completed results)) →
    Once origin (Acknowledged origin results) events host
  /-- What it takes for a notice to be heard is what the session shows. -/
  handedOver : ∀ session, HandedOver origin session events host ↔
    session = host.session.id ∧ host.session.phase = .transmitted
  heard : ∀ request, HandedOver origin request.session events host →
    host.takeNotice request = (.ok ⟨⟩, host.tell .finished)
  ignored : ∀ request, ¬ HandedOver origin request.session events host →
    host.takeNotice request = (.ok ⟨⟩, host)

/-- Whatever happens to a remote host, its end is justified. -/
theorem exits_justified (made : ofConfig? config id directory = .ok origin) {events : List Event}
    (followed : origin.follow events = some host) : ExitsJustified origin events host := by
  have grounded := grounded_of_follow made followed
  have loop_of_result : ∀ result, host.result? = some result → host.loop = .ended result := by
    intro result ended
    rw [result?] at ended
    split at ended
    · rename_i loop
      cases ended
      exact loop
    · cases ended
  constructor
  case finished =>
    intro ended
    apply grounded.founded .finished
    right
    rw [loop_of_result _ ended]
    rfl
  case completed =>
    intro results ended
    apply grounded.founded (.completed results)
    right
    rw [loop_of_result _ ended]
    rfl
  case handedOver => exact fun session => handedOver_iff made followed
  case heard =>
    intro request handed
    rw [takeNotice, if_pos ((handedOver_iff made followed).mp handed)]
  case ignored =>
    intro request others
    rw [takeNotice, if_neg fun same => others ((handedOver_iff made followed).mpr same)]

/-- A host hands its computation over and is told of its end. -/
def leavingEvents : List Event :=
  [.begin, .invoke 0, .turn 0, .settle 0, .finish ⟨steppingId⟩, .notice, .elapse 500, .graceOver]

/-- A host that is not interrupted. -/
def steadyFib : Config := { steppingFib with arguments := [1], policy := .never }

/-- It completes its computation, and its peer acknowledges that. -/
def completingEvents : List Event :=
  [.begin, .invoke 0] ++ List.replicate 6 (.turn 0) ++
    [.settle 0, .answer 0 (.finish (.ok ⟨⟩)), .notice]

/-- A host that is told of the end of the computation that it handed over ends for that, and ignores
notices of the end of any other. One that completes its computation ends when its peer knows. -/
theorem exits_justified_fib :
    (∃ origin left, ofConfig? steppingFib steppingId {} = .ok origin ∧
      origin.follow leavingEvents = some left ∧ left.result? = some (.ok .finished) ∧
      Once origin (Learns origin) leavingEvents left ∧
      ∀ request, request.session ≠ steppingId → left.takeNotice request = (.ok ⟨⟩, left)) ∧
    ∃ origin done, ofConfig? steadyFib steppingId {} = .ok origin ∧
      origin.follow completingEvents = some done ∧
      done.result? = some (.ok (.completed [1])) ∧
      Once origin (Acknowledged origin [1]) completingEvents done := by
  constructor
  · have course : ∃ origin left, ofConfig? steppingFib steppingId {} = .ok origin ∧
        origin.follow leavingEvents = some left ∧ left.result? = some (.ok .finished) ∧
        left.session.id = steppingId := ⟨_, _, rfl, rfl, rfl, rfl⟩
    obtain ⟨origin, left, made, followed, ended, same_id⟩ := course
    have justified := exits_justified made followed
    refine ⟨origin, left, made, followed, ended, justified.finished ended, ?_⟩
    intro request other
    apply justified.ignored
    intro handed
    have same := ((justified.handedOver _).mp handed).1
    exact other (same.trans same_id)
  · have course : ∃ origin done, ofConfig? steadyFib steppingId {} = .ok origin ∧
        origin.follow completingEvents = some done ∧
        done.result? = some (.ok (.completed [1])) := ⟨_, _, rfl, rfl, rfl⟩
    obtain ⟨origin, done, made, followed, ended⟩ := course
    have justified := exits_justified made followed
    exact ⟨origin, done, made, followed, ended, justified.completed [1] ended⟩

end Ferry.Remote
