import Ferry.Proofs.Remote.Step

/-!
# What a step changes

Among the runs a step adds one, leads one to another stage or removes one; the session it leaves alone,
or it receives a computation, completes it or hands it over. Most of what is said about a course of
events needs no more of a step than this.
-/

namespace Ferry.Remote

variable {host next : Remote} {event : Event} {call : Option Call}

/-- Every step keeps the numbers of the runs. -/
theorem Moves.numbered (moves : host.Moves event next call) (numbered : host.Numbered) :
    next.Numbered := by
  cases moves with
  | starts | accepts =>
      apply Numbered.spawn
      exact numbered.congr rfl rfl
  | works | completes | hands =>
      apply Numbered.setStage
      exact numbered.congr rfl rfl
  | discards | relieved => exact numbered.removeRun _
  | faults | misfits | stranded | acknowledged | unacknowledged =>
      exact (numbered.removeRun _).congr rfl rfl
  | hears => exact numbered.congr (hear_sameWork _ _ _).runs (hear_sameWork _ _ _).spawned
  | pressed => exact numbered.congr (press_sameWork _ _).runs (press_sameWork _ _).spawned
  | leaves => exact numbered.congr (conclude_sameWork _ _).runs (conclude_sameWork _ _).spawned
  | startRefused | waits | declines | learns | ignores | elapses => exact numbered.congr rfl rfl

/-- The run that an event belongs to. -/
def Event.run? : Event → Option Nat
  | .invoke run | .turn run | .settle run | .answer run _ => some run
  | .begin | .execute _ | .finish _ | .notice | .key _ | .graceOver | .elapse _ => none

/-- A run stays where it is in the events of others. -/
theorem Moves.stage?_of_other (moves : host.Moves event next call) (numbered : host.Numbered)
    {run : Nat} {stage : Stage} (stands : host.stage? run = some stage)
    (other : event.run? ≠ some run) : next.stage? run = some stage := by
  have not_new : run ≠ host.spawned := by
    rintro rfl
    rw [stage?_eq_none_of_le numbered (Nat.le_refl _)] at stands
    contradiction
  have differs : ∀ {number}, event.run? = some number → run ≠ number := by
    rintro _ own rfl
    exact other own
  have added : ∀ (base : Remote) (snapshot : Option Snapshot), base.runs = host.runs →
      base.spawned = host.spawned → (base.spawn snapshot).stage? run = some stage := by
    intro base snapshot runs spawned
    rw [stage?_spawn_of numbered runs spawned]
    exact (if_neg not_new).trans stands
  have moved : ∀ (base : Remote) (number : Nat) (before after : Stage), base.runs = host.runs →
      host.stage? number = some before → event.run? = some number →
      (base.setStage number after).stage? run = some stage := by
    intro base number before after runs stands' own
    rw [stage?_setStage_of runs stands']
    exact (if_neg (differs own)).trans stands
  have removed : ∀ number, event.run? = some number →
      (host.removeRun number).stage? run = some stage := by
    intro number own
    rw [stage?_removeRun, if_neg (differs own)]
    exact stands
  cases moves with
  | starts | accepts => exact added _ _ rfl rfl
  | works stands' _ own => exact moved _ _ _ _ rfl stands' (by rcases own with rfl | rfl <;> rfl)
  | completes returned | hands returned => exact moved _ _ _ _ rfl returned rfl
  | discards | faults | misfits | relieved | stranded | acknowledged | unacknowledged =>
      exact removed _ rfl
  | hears =>
      rw [stage?_congr (hear_sameWork _ _ _).runs]
      exact stands
  | pressed =>
      rw [stage?_congr (press_sameWork _ _).runs]
      exact stands
  | leaves =>
      rw [stage?_congr (conclude_sameWork _ _).runs]
      exact stands
  | startRefused | waits | declines | learns | ignores | elapses => exact stands

/-- How a run comes to a stage in a step. -/
inductive Arises (host : Remote) (event : Event) (next : Remote) (call : Option Call) (run : Nat) :
    Stage → Prop where
  | added {snapshot : Option Snapshot}
      (added : next.runs = host.runs ++ [⟨run, .spawned snapshot⟩])
      (source : host.loop = .starting snapshot ∨
        ∃ request : Peer.ExecuteRequest, snapshot = request.resumable?) :
      Arises host event next call run (.spawned snapshot)
  | works {before after : Stage} (stands : host.stage? run = some before)
      (onward : before.Next host.config after) : Arises host event next call run after
  | hands (settles : event = .settle run) : Arises host event next call run .handing
  | tells {results : List Word} (settles : event = .settle run)
      (returned : host.stage? run = some (.returned (.completed results)))
      (completed : next.session = { host.session with phase := .completed })
      (told : call = some (.finish ⟨host.session.id⟩)) :
      Arises host event next call run (.telling results)

/-- A run is at a stage because it was there before, or because a step has led it there. -/
theorem Moves.stage_cases (moves : host.Moves event next call) (numbered : host.Numbered) {run : Nat}
    {stage : Stage} (stands : next.stage? run = some stage) :
    host.stage? run = some stage ∨ Arises host event next call run stage := by
  have added : ∀ (base : Remote) (snapshot : Option Snapshot), next = base.spawn snapshot →
      base.runs = host.runs → base.spawned = host.spawned →
      (host.loop = .starting snapshot ∨
        ∃ request : Peer.ExecuteRequest, snapshot = request.resumable?) →
      host.stage? run = some stage ∨ Arises host event next call run stage := by
    rintro base snapshot rfl runs count source
    rw [stage?_spawn_of numbered runs count] at stands
    simp only at stands
    split at stands
    · rename_i last
      cases stands
      refine .inr (.added ?_ source)
      rw [spawn, runs, count, last]
    · exact .inl stands
  have moved : ∀ (base : Remote) (other : Nat) (before after : Stage),
      next = base.setStage other after → base.runs = host.runs → host.stage? other = some before →
      host.stage? run = some stage ∨ run = other ∧ stage = after := by
    rintro base other before after rfl runs stood
    rw [stage?_setStage_of runs stood] at stands
    simp only at stands
    split at stands
    · rename_i same
      cases stands
      exact .inr ⟨same, rfl⟩
    · exact .inl stands
  have removed : ∀ other, (host.removeRun other).stage? run = some stage →
      host.stage? run = some stage := by
    intro other stands
    rw [stage?_removeRun] at stands
    split at stands
    · cases stands
    · exact stands
  cases moves with
  | starts starting => exact added _ _ rfl rfl rfl (.inl starting)
  | accepts => exact added _ _ rfl rfl rfl (.inr ⟨_, rfl⟩)
  | works stood onward =>
      rcases moved _ _ _ _ rfl rfl stood with earlier | ⟨rfl, rfl⟩
      · exact .inl earlier
      · exact .inr (.works stood onward)
  | completes returned =>
      rcases moved _ _ _ _ rfl rfl returned with earlier | ⟨rfl, rfl⟩
      · exact .inl earlier
      · exact .inr (.tells rfl returned rfl rfl)
  | hands returned =>
      rcases moved _ _ _ _ rfl rfl returned with earlier | ⟨rfl, rfl⟩
      · exact .inl earlier
      · exact .inr (.hands rfl)
  | discards | faults | misfits | relieved | stranded | acknowledged | unacknowledged =>
      exact .inl (removed _ stands)
  | hears =>
      rw [stage?_congr (hear_sameWork _ _ _).runs] at stands
      exact .inl stands
  | pressed =>
      rw [stage?_congr (press_sameWork _ _).runs] at stands
      exact .inl stands
  | leaves =>
      rw [stage?_congr (conclude_sameWork _ _).runs] at stands
      exact .inl stands
  | startRefused | waits | declines | learns | ignores | elapses => exact .inl stands

/-- How the session gets on in a step. -/
inductive SessionMoves (host : Remote) (event : Event) (next : Remote) (call : Option Call) :
    Prop where
  | stays (same : next.session = host.session)
      (refused : ∀ request, event = .execute request → ¬ host.Takes request)
  | receives {snapshot : Option Snapshot}
      (edge : host.session.phase.mayBecome (Session.phaseOnReceipt snapshot) = true)
      (received : next.session.phase = Session.phaseOnReceipt snapshot)
  | completes (active : host.session.phase.isActive = true)
      (completed : next.session = { host.session with phase := .completed })
  | hands {run : Nat} {snapshot : Snapshot} (active : host.session.phase.isActive = true)
      (settles : event = .settle run)
      (returned : host.stage? run = some (.returned (.paused snapshot)))
      (handed : next.session = { host.session with phase := .transmitted, pending := none })
      (sent : call = some (.execute (.resume host.session.id host.config.program.name snapshot)))

theorem Moves.session_moves (moves : host.Moves event next call) :
    SessionMoves host event next call := by
  cases moves with
  | starts _ _ edge | accepts _ _ edge => exact .receives edge rfl
  | completes _ _ active => exact .completes active rfl
  | hands returned _ active => exact .hands active rfl returned rfl rfl
  | declines refused =>
      refine .stays rfl fun request same => ?_
      cases same
      exact fun takes => refused (takeOver_accepts_iff.mpr takes)
  | works _ _ own => exact .stays rfl fun request same => by rcases own with rfl | rfl <;> cases same
  | hears => exact .stays (hear_sameWork _ _ _).session nofun
  | pressed => exact .stays (press_sameWork _ _).session nofun
  | leaves => exact .stays (conclude_sameWork _ _).session nofun
  | startRefused | waits | discards | faults | misfits | relieved | stranded | acknowledged
  | unacknowledged | learns | ignores | elapses => exact .stays rfl nofun

/-- While a computation is active, it keeps its id. -/
theorem Moves.id_of_isActive (moves : host.Moves event next call)
    (active : host.session.phase.isActive = true) : next.session.id = host.session.id := by
  cases moves.session_moves with
  | stays same => rw [same]
  | receives edge =>
      rw [Phase.not_mayBecome_of_isActive active] at edge
      contradiction
  | completes _ completed => rw [completed]
  | hands _ _ _ handed => rw [handed]

end Ferry.Remote
