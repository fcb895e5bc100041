import Ferry.Proofs.Local.Step
import Ferry.Proofs.Remote.Acceptance

/-!
# Hosts ask for legal moves

A host moves its session only where the session lets it: runs, requests and keys never ask for a move
that the phase does not allow. There is one exception. The server of a remote host begins before the
main loop, so a computation may be taken over first; a main loop that is to start a run of its own
then finds the session occupied, and it ends while the run that was begun goes on.
-/

namespace Ferry.Remote

variable {host next : Remote} {event : Event} {call : Option Call}

/-- How the main loop gets on in a step. -/
inductive Loop.Next (host : Remote) : Event → Loop → Prop where
  | stays {event : Event} {loop : Loop} (same : loop = host.loop) : Next host event loop
  | begins {initial : Option Snapshot} (starting : host.loop = .starting initial) :
      Next host .begin .waiting
  /-- It is to start a run, and the session does not allow it. -/
  | refused {initial : Option Snapshot} (starting : host.loop = .starting initial)
      (immediately : host.config.startImmediately = true)
      (noEdge : host.session.phase.mayBecome (Session.phaseOnReceipt initial) = false) :
      Next host .begin (.ended (.error
        (.invalidState host.session.phase.text (Session.phaseOnReceipt initial).text)))
  | lingers {event : Event} {deadline : Nat} (waiting : host.loop = .waiting) :
      Next host event (.grace deadline)
  /-- It has been told of the end, or the operator has asked for it. -/
  | ends {event : Event} {result : Except Failure Exit} (waiting : host.loop = .waiting)
      (told : ∀ failure, result = .error failure → .failed failure ∈ host.inbox) :
      Next host event (.ended result)
  | leaves {deadline : Nat} (grace : host.loop = .grace deadline) :
      Next host .graceOver (.ended (.ok .finished))

theorem Moves.loop_next (moves : host.Moves event next call) : Loop.Next host event next.loop := by
  cases moves with
  | starts starting | waits starting => exact .begins starting
  | startRefused starting immediately noEdge => exact .refused starting immediately noEdge
  | works | discards | completes | hands | faults | misfits | relieved | stranded | acknowledged
  | unacknowledged | accepts | declines | learns | ignores | elapses => exact .stays rfl
  | @hears notice rest waiting inbox =>
      cases notice with
      | completed results =>
          simp only [hear, conclude_loop]
          exact .ends waiting (by simp)
      | finished => exact .lingers waiting
      | failed failure =>
          simp only [hear, conclude_loop]
          refine .ends waiting ?_
          intro other same
          cases same
          rw [inbox]
          exact List.mem_cons_self
  | @pressed action waiting =>
      cases action with
      | abort =>
          simp only [press, conclude_loop]
          exact .ends waiting (by simp)
      | snapshotNow | resumeOrRun => exact .stays rfl
  | leaves grace =>
      rw [conclude_loop]
      exact .leaves grace

/-- A loop that has ended stays so. -/
theorem Moves.loop_ended (moves : host.Moves event next call) {result : Except Failure Exit}
    (ended : host.loop = .ended result) : next.loop = .ended result := by
  have onward := moves.loop_next
  generalize next.loop = loop at onward ⊢
  cases onward with
  | stays same => exact same.trans ended
  | begins starting | refused starting =>
      rw [ended] at starting
      contradiction
  | lingers waiting | ends waiting =>
      rw [ended] at waiting
      contradiction
  | leaves grace =>
      rw [ended] at grace
      contradiction

/-- A loop that begins has not begun before. -/
theorem Moves.starting_of_starting (moves : host.Moves event next call) {initial : Option Snapshot}
    (starting : next.loop = .starting initial) : host.loop = .starting initial := by
  have onward := moves.loop_next
  rw [starting] at onward
  cases onward with
  | stays same => exact same.symm

/-- No failure that waits for the main loop is an illegal move. -/
def Lawful (host : Remote) : Prop :=
  ∀ failure, .failed failure ∈ host.inbox → ¬ failure.IsIllegalMove

theorem Lawful.tell (lawful : host.Lawful) {base : Remote} (same : base.inbox = host.inbox)
    {notice : Notice} (legal : ∀ failure, notice = .failed failure → ¬ failure.IsIllegalMove) :
    (base.tell notice).Lawful := by
  intro failure member
  simp only [Remote.tell, same] at member
  rcases List.mem_append.mp member with earlier | last
  · exact lawful failure earlier
  · exact legal failure (List.mem_singleton.mp last).symm

theorem Moves.lawful (moves : host.Moves event next call) (orderly : host.Orderly)
    (lawful : host.Lawful) : next.Lawful := by
  cases moves with
  | starts | startRefused | waits | works | discards | completes | hands | relieved | accepts
  | declines | ignores | elapses => exact lawful
  | @faults _ fault =>
      apply lawful.tell
      · rfl
      · rintro failure same
        cases same
        exact fault.not_isIllegalMove
  | misfits returned _ inactive =>
      rw [orderly.balanced.active _ _ returned rfl] at inactive
      contradiction
  | stranded _ _ _ legal =>
      apply lawful.tell
      · rfl
      · rintro failure same
        cases same
        exact legal
  | acknowledged | learns =>
      apply lawful.tell
      · rfl
      · rintro failure same
        cases same
  | @unacknowledged _ _ error =>
      apply lawful.tell
      · rfl
      · rintro failure same
        cases same
        exact error.not_isIllegalMove
  | hears waiting inbox =>
      intro failure member
      rw [hear_inbox] at member
      apply lawful failure
      rw [inbox]
      exact List.mem_cons_of_mem _ member
  | pressed =>
      intro failure member
      rw [press_inbox] at member
      exact lawful failure member
  | leaves =>
      intro failure member
      rw [conclude_inbox] at member
      exact lawful failure member

/-- The server never fails with an illegal move. -/
theorem Orderly.takeOver_legal (orderly : host.Orderly) {request : Peer.ExecuteRequest}
    {failure : Failure} (failed : (host.takeOver request).1 = .error failure) :
    ¬ failure.IsIllegalMove := by
  have untaken : ¬ host.Takes request := fun takes => by
    rw [takeOver_of_takes takes] at failed
    cases failed
  have declined := (takeOver_declined untaken).1
  rw [failed] at declined
  cases declined with
  | malformed _ refused => exact Peer.ExecuteRequest.not_isIllegalMove_of_check refused
  | edgeless _ _ free noEdge =>
      -- A phase that is neither active nor terminal is left by an edge, because it is not the pause.
      have notPaused := orderly.balanced.notPaused
      have edge : host.session.phase.mayBecome (Session.phaseOnReceipt request.resumable?) = true := by
        rw [Phase.mayBecome_phaseOnReceipt_iff]
        cases phase : host.session.phase <;> simp_all [Phase.isActive, Phase.isTerminal]
      rw [noEdge] at edge
      contradiction

/-- The server has been faster than a main loop that is to start a run: before the loop begins, a
computation was taken over, and it is still active or has completed. -/
structure Overtaken (host : Remote) : Prop where
  starting : ∃ initial, host.loop = .starting initial
  immediately : host.config.startImmediately = true
  occupied : host.session.phase.isActive = true ∨ host.session.phase = .completed

/-- A host has ended with an illegal move. -/
def EndsIllegally (host : Remote) : Prop :=
  ∃ failure, host.result? = some (.error failure) ∧ failure.IsIllegalMove

theorem endsIllegally_iff :
    host.EndsIllegally ↔
      ∃ failure, host.loop = .ended (.error failure) ∧ failure.IsIllegalMove := by
  simp only [EndsIllegally, result?]
  constructor
  · rintro ⟨failure, result, illegal⟩
    split at result
    · rename_i ended
      cases result
      exact ⟨failure, ended, illegal⟩
    · cases result
  · rintro ⟨failure, ended, illegal⟩
    exact ⟨failure, by rw [ended], illegal⟩

/-- The loop of a host that has been overtaken is refused its run. -/
theorem Overtaken.refused (overtaken : host.Overtaken)
    (moves : host.Moves .begin next call) : next.EndsIllegally := by
  have noEdge : ∀ snapshot,
      host.session.phase.mayBecome (Session.phaseOnReceipt snapshot) = false := by
    intro snapshot
    rcases overtaken.occupied with active | completed
    · exact Phase.not_mayBecome_of_isActive active snapshot
    · rw [completed]
      cases snapshot <;> rfl
  cases moves with
  | works _ _ own => rcases own with own | own <;> cases own
  | starts _ _ edge =>
      rw [noEdge] at edge
      contradiction
  | startRefused => exact endsIllegally_iff.mpr ⟨_, rfl, _, _, rfl⟩
  | waits _ waiting =>
      rw [overtaken.immediately] at waiting
      contradiction

/-- If a step ends a host with an illegal move, the loop begins and has been overtaken. -/
theorem Moves.overtaken (moves : host.Moves event next call) (orderly : host.Orderly)
    (lawful : host.Lawful) (not_yet : ¬ host.EndsIllegally) (now : next.EndsIllegally) :
    event = .begin ∧ host.Overtaken := by
  rcases endsIllegally_iff.mp now with ⟨failure, ended, illegal⟩
  have onward := moves.loop_next
  rw [ended] at onward
  cases onward with
  | stays same => exact absurd (endsIllegally_iff.mpr ⟨failure, same.symm, illegal⟩) not_yet
  | ends _ told => exact absurd illegal (lawful failure (told failure rfl))
  | @refused initial starting immediately noEdge =>
      have notPaused := orderly.balanced.notPaused
      have notExported := orderly.balanced.notExported
      have notFree : ¬ (host.session.phase = .idle ∨ host.session.phase = .transmitted) := by
        intro free
        rw [(Phase.mayBecome_phaseOnReceipt_iff _ _).mpr (free.imp_right .inl)] at noEdge
        contradiction
      refine ⟨rfl, ⟨initial, starting⟩, immediately, ?_⟩
      cases phase : host.session.phase <;> simp_all [Phase.isActive]

/-- What begins a computation in an idle session is a request that is taken over, or the main loop. -/
theorem Moves.begun_by (moves : host.Moves event next call) (idle : host.session.phase = .idle)
    (begun : next.session.phase ≠ .idle) :
    (∃ request, event = .execute request ∧ host.Takes request) ∨ next.loop = .waiting := by
  have not_active : host.session.phase.isActive = true →
      (∃ request, event = .execute request ∧ host.Takes request) ∨ next.loop = .waiting := by
    rw [idle]
    exact fun active => nomatch active
  cases moves with
  | starts => exact .inr rfl
  | @accepts request program sound edge => exact .inl ⟨request, rfl, program, sound, edge⟩
  | completes _ _ active | hands _ _ active => exact not_active active
  | startRefused | waits | works | discards | faults | misfits | relieved | stranded
  | acknowledged | unacknowledged | declines | learns | ignores | elapses => exact absurd idle begun
  | hears =>
      rw [(hear_sameWork _ _ _).session] at begun
      exact absurd idle begun
  | pressed =>
      rw [(press_sameWork _ _).session] at begun
      exact absurd idle begun
  | leaves =>
      rw [(conclude_sameWork _ _).session] at begun
      exact absurd idle begun

theorem starting_of_follow {later : Remote} {events : List Event}
    (followed : host.follow events = some later) {initial : Option Snapshot}
    (starting : later.loop = .starting initial) : host.loop = .starting initial := by
  induction events generalizing host with
  | nil =>
      cases followed
      exact starting
  | cons event rest ih =>
      obtain ⟨⟨next, call⟩, stepped, followed⟩ := Option.bind_eq_some_iff.mp followed
      exact (moves_of_step stepped).starting_of_starting (ih followed)

section Course

variable {config : Config} {id : SessionId} {directory : Directory} {origin : Remote}

/-- The remote host of a configuration is about to begin, or has ended because there is nothing to
start from. -/
theorem not_endsIllegally_of_ofConfig? (made : ofConfig? config id directory = .ok origin) :
    ¬ origin.EndsIllegally := by
  rw [endsIllegally_iff]
  rintro ⟨failure, ended, illegal⟩
  rcases ofConfig?_loop made with fresh | ⟨initial, -, loop⟩ | ⟨other, unread, loop⟩
  · rw [fresh] at ended
    cases ended
  · rw [loop] at ended
    cases ended
  · rw [loop] at ended
    cases ended
    exact Host.not_isIllegalMove_of_loadInitial unread illegal

theorem lawful_of_reaches (made : ofConfig? config id directory = .ok origin)
    (reaches : origin.Reaches host) : host.Orderly ∧ host.Lawful := by
  rcases ofConfig?_eq_ok made with ⟨-, -, -, inbox, -⟩
  have first : origin.Lawful := by
    intro failure member
    rw [inbox] at member
    cases member
  apply reaches.induction
  · exact ⟨.ofConfig? made, first⟩
  · rintro before event after call ⟨orderly, lawful⟩ moves
    exact ⟨moves.orderly orderly, moves.lawful orderly lawful⟩

/-- A host ends with an illegal move exactly if its main loop begins after it was overtaken. -/
theorem endsIllegally_iff_overtaken (made : ofConfig? config id directory = .ok origin)
    {events : List Event} (followed : origin.follow events = some host) :
    host.EndsIllegally ↔ ∃ earlier before later, events = earlier ++ .begin :: later ∧
      origin.follow earlier = some before ∧ before.Overtaken := by
  constructor
  · intro illegal
    rcases exists_turn_of_follow EndsIllegally followed (not_endsIllegally_of_ofConfig? made) illegal
      with ⟨earlier, event, later, before, after, call, rfl, course, stepped, -, not_yet, now⟩
    rcases lawful_of_reaches made ⟨earlier, course⟩ with ⟨orderly, lawful⟩
    rcases (moves_of_step stepped).overtaken orderly lawful not_yet now with ⟨rfl, overtaken⟩
    exact ⟨earlier, before, later, rfl, course, overtaken⟩
  · rintro ⟨earlier, before, later, rfl, course, overtaken⟩
    rw [follow_append, course, Option.bind_some, follow] at followed
    obtain ⟨⟨next, call⟩, stepped, onward⟩ := Option.bind_eq_some_iff.mp followed
    have refused := overtaken.refused (moves_of_step stepped)
    rcases endsIllegally_iff.mp refused with ⟨failure, ended, illegal⟩
    have still : host.loop = .ended (.error failure) :=
      Reaches.induction ⟨later, onward⟩ ended fun _ _ _ _ ended moves => moves.loop_ended ended
    exact endsIllegally_iff.mpr ⟨failure, still, illegal⟩

/-- A host is overtaken only by a request that its server has taken over. -/
theorem Overtaken.accepted (made : ofConfig? config id directory = .ok origin)
    {events : List Event} (followed : origin.follow events = some host)
    (overtaken : host.Overtaken) :
    ∃ earlier request later before, events = earlier ++ .execute request :: later ∧
      origin.follow earlier = some before ∧ (before.takeOver request).1 = .ok ⟨true⟩ := by
  rcases ofConfig?_eq_ok made with ⟨-, -, -, -, session⟩
  have idle : origin.session.phase = .idle := by
    rw [session]
  have begun : host.session.phase ≠ .idle := by
    rcases overtaken.occupied with active | completed
    · exact Phase.ne_idle_of_isActive active
    · rw [completed]
      decide
  rcases overtaken.starting with ⟨initial, starting⟩
  rcases exists_turn_of_follow (fun later => later.session.phase ≠ .idle) followed
    (not_not_intro idle) begun with
    ⟨earlier, event, later, before, after, call, rfl, course, stepped, onward, idle, begun⟩
  rcases (moves_of_step stepped).begun_by (Decidable.not_not.mp idle) begun with
    ⟨request, rfl, takes⟩ | waiting
  · exact ⟨earlier, request, later, before, rfl, course, takeOver_accepts_iff.mpr takes⟩
  · rw [starting_of_follow onward starting] at waiting
    contradiction

end Course

/-- After a course of events a host has asked for legal moves only, unless its main loop was
overtaken. -/
structure MovesLegally (origin : Remote) (events : List Event) (host : Remote) : Prop where
  /-- The server answers or refuses every request as it should. -/
  takesOver : ∀ request failure, (host.takeOver request).1 = .error failure →
    ¬ failure.IsIllegalMove
  takesNotice : ∀ request, (host.takeNotice request).1 = .ok ⟨⟩
  /-- No run has failed with an illegal move. -/
  runs : ∀ failure, .failed failure ∈ host.inbox → ¬ failure.IsIllegalMove
  /-- The host has ended with an illegal move exactly if its loop began after it was overtaken. -/
  ends : host.EndsIllegally ↔ ∃ earlier before later, events = earlier ++ .begin :: later ∧
    origin.follow earlier = some before ∧ before.Overtaken
  /-- It was overtaken by a request that its server had taken over. -/
  overtaken : ∀ earlier before, origin.follow earlier = some before → before.Overtaken →
    ∃ first request rest middle, earlier = first ++ .execute request :: rest ∧
      origin.follow first = some middle ∧ (middle.takeOver request).1 = .ok ⟨true⟩

/-- Whatever happens, a local host asks for legal moves only, and so does a remote host unless it is
to start a run and its server has taken over a computation before the main loop begins. -/
theorem legal_unless_overtaken (config : Config) (id : SessionId) (directory : Directory) :
    (∀ keyboardOpen origin events (host : Local) failure,
      Local.ofConfig? config id directory keyboardOpen = .ok origin →
      origin.run events = some host → host.result? = some (.error failure) →
      ¬ failure.IsIllegalMove) ∧
    ∀ origin events (host : Remote),
      ofConfig? config id directory = .ok origin → origin.follow events = some host →
      MovesLegally origin events host := by
  constructor
  · intro keyboardOpen origin events host failure made course result
    exact Local.not_isIllegalMove_of_result? made course result
  · intro origin events host made followed
    rcases lawful_of_reaches made ⟨events, followed⟩ with ⟨orderly, lawful⟩
    exact {
      takesOver := fun _ _ failed => orderly.takeOver_legal failed
      takesNotice := takeNotice_fst host
      runs := lawful
      ends := endsIllegally_iff_overtaken made followed
      overtaken := fun _ _ course overtaken => overtaken.accepted made course }

/-- A local host that is given no argument ends otherwise; and a remote host whose server takes over
a computation before the main loop begins ends with an illegal move. -/
theorem legal_unless_overtaken_stepping :
    (∃ origin host failure,
      Local.ofConfig? { steppingFib with mode := .local, arguments := [] } steppingId {} false =
        .ok origin ∧
      origin.run [.proceed] = some host ∧ host.result? = some (.error failure) ∧
      ¬ failure.IsIllegalMove) ∧
    ∃ origin host, ofConfig? steppingFib steppingId {} = .ok origin ∧
      origin.follow [.execute (.start steppingId "fib"), .begin] = some host ∧
      host.EndsIllegally := by
  constructor
  · have course : ∃ origin host failure,
        Local.ofConfig? { steppingFib with mode := .local, arguments := [] } steppingId {} false =
          .ok origin ∧
        origin.run [.proceed] = some host ∧ host.result? = some (.error failure) :=
      ⟨_, _, _, rfl, rfl, rfl⟩
    rcases course with ⟨origin, host, failure, made, course, result⟩
    have legal := (legal_unless_overtaken _ _ _).1 _ _ _ _ _ made course result
    exact ⟨origin, host, failure, made, course, result, legal⟩
  · have course : ∃ origin before host, ofConfig? steppingFib steppingId {} = .ok origin ∧
        origin.follow [.execute (.start steppingId "fib")] = some before ∧ before.Overtaken ∧
        origin.follow [.execute (.start steppingId "fib"), .begin] = some host :=
      ⟨_, _, _, rfl, rfl, ⟨⟨none, rfl⟩, rfl, .inl rfl⟩, rfl⟩
    rcases course with ⟨origin, before, host, made, earlier, overtaken, followed⟩
    have legally := (legal_unless_overtaken _ _ _).2 _ _ _ made followed
    exact ⟨origin, host, made, followed, legally.ends.mpr ⟨_, before, [], rfl, earlier, overtaken⟩⟩

/-- A host that is to start a run at once has its server take over a computation first. The main loop
ends with an illegal move and tells nobody of it: the run that was taken over goes on, hands its
snapshot to the peer, and nobody waits for what becomes of it. -/
theorem overtaken_then_ended :
    ∃ origin host later, ofConfig? steppingFib steppingId {} = .ok origin ∧
      origin.follow [.execute (.start steppingId "fib"), .begin] = some host ∧
      host.result?.bind Except.toOption = none ∧ host.result?.isSome = true ∧
      host.EndsIllegally ∧ host.shutDown = false ∧
      host.follow [.invoke 0, .turn 0, .settle 0] = some later ∧
      later.runs = [⟨0, .handing⟩] ∧ later.shutDown = false :=
  ⟨_, _, _, rfl, rfl, rfl, rfl, ⟨_, rfl, _, _, rfl⟩, rfl, rfl, rfl, rfl⟩

end Ferry.Remote
