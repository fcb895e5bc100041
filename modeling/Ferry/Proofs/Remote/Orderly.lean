import Ferry.Proofs.Remote.Changes

/-!
# A remote host keeps order

At most one run works at a time, and while it works its computation is active in the session. Runs
that wait for a reply do not count: they have given their snapshot away, or they have the results.
The session keeps no snapshot, because whatever is captured or received is passed on at once.
-/

namespace Ferry.Remote

/-- The runs, told by their stages, and the session go together. -/
structure Balanced (stages : Nat → Option Stage) (session : Session) : Prop where
  active : ∀ run stage, stages run = some stage → stage.isWorking = true →
    session.phase.isActive = true
  single : ∀ run other stage stage', stages run = some stage → stage.isWorking = true →
    stages other = some stage' → stage'.isWorking = true → run = other
  completed : ∀ run results, stages run = some (.telling results) → session.phase = .completed
  idle : session.phase = .idle → ∀ run, stages run = none
  notPaused : session.phase ≠ .paused
  notExported : session.phase ≠ .exported
  pending : session.pending = none
  received : session.received = none

namespace Balanced

variable {stages : Nat → Option Stage} {session : Session}

/-- Where a computation can be received, no run works. -/
theorem not_working (balanced : Balanced stages session)
    (phase : session.phase = .idle ∨ session.phase = .transmitted) {run : Nat} {stage : Stage}
    (stands : stages run = some stage) : stage.isWorking = false := by
  cases works : stage.isWorking with
  | false => rfl
  | true =>
      have active := balanced.active run stage stands works
      rcases phase with phase | phase <;> rw [phase] at active <;> contradiction

/-- A run is added where a computation can be received. -/
theorem add (balanced : Balanced stages session)
    (phase : session.phase = .idle ∨ session.phase = .transmitted) (number : Nat)
    (snapshot : Option Snapshot) {after : Session} (active : after.phase.isActive = true)
    (pending : after.pending = none) (received : after.received = none) :
    Balanced (fun run => if run = number then some (.spawned snapshot) else stages run) after := by
  have new_of_working : ∀ run stage, (if run = number then some (.spawned snapshot) else stages run) =
      some stage → stage.isWorking = true → run = number := by
    intro run stage stands works
    split at stands
    · assumption
    · rw [balanced.not_working phase stands] at works
      contradiction
  have not_of_active : ∀ other : Phase, other.isActive = false → after.phase ≠ other := by
    rintro other inactive rfl
    rw [active] at inactive
    contradiction
  constructor
  · intro run stage stands works
    exact active
  · intro run other stage stage' stands works stands' works'
    rw [new_of_working run stage stands works, new_of_working other stage' stands' works']
  · intro run results stands
    split at stands
    · cases stands
    · have completed := balanced.completed run results stands
      rcases phase with phase | phase <;> rw [phase] at completed <;> contradiction
  · intro idle
    exact absurd idle (not_of_active .idle rfl)
  · exact not_of_active .paused rfl
  · exact not_of_active .exported rfl
  · exact pending
  · exact received

/-- The run that works gets on. -/
theorem work (balanced : Balanced stages session) {number : Nat} {before next : Stage}
    (stands : stages number = some before) (worked : before.isWorking = true)
    (works : next.isWorking = true) :
    Balanced (fun run => if run = number then some next else stages run) session := by
  have active := balanced.active number before stands worked
  have same_of_working : ∀ run stage, (if run = number then some next else stages run) =
      some stage → stage.isWorking = true → run = number := by
    intro run stage stands' works'
    split at stands'
    · assumption
    · exact balanced.single run number stage before stands' works' stands worked
  constructor
  · intro run stage _ _
    exact active
  · intro run other stage stage' stands works stands' works'
    rw [same_of_working run stage stands works, same_of_working other stage' stands' works']
  · intro run results stands'
    split at stands'
    · cases stands'
      contradiction
    · exact balanced.completed run results stands'
  · intro idle
    exact absurd idle (Phase.ne_idle_of_isActive active)
  · exact balanced.notPaused
  · exact balanced.notExported
  · exact balanced.pending
  · exact balanced.received

/-- The run that works has done its work, and waits for the reply to its message. -/
theorem rest (balanced : Balanced stages session) {number : Nat} {before next : Stage}
    (stands : stages number = some before) (worked : before.isWorking = true)
    {after : Session}
    (waits : next = .handing ∧ after.phase = .transmitted ∨
      ∃ results, next = .telling results ∧ after.phase = .completed)
    (pending : after.pending = none) (received : after.received = none) :
    Balanced (fun run => if run = number then some next else stages run) after := by
  have active := balanced.active number before stands worked
  have nobody_works : ∀ run stage, (if run = number then some next else stages run) =
      some stage → stage.isWorking = false := by
    intro run stage stands'
    split at stands'
    · cases stands'
      rcases waits with ⟨rfl, -⟩ | ⟨results, rfl, -⟩ <;> rfl
    · rename_i other
      cases works' : stage.isWorking with
      | false => rfl
      | true => exact absurd (balanced.single run number stage before stands' works' stands worked) other
  have not_of : ∀ other : Phase, other ≠ .transmitted → other ≠ .completed → after.phase ≠ other := by
    rintro other notTransmitted notCompleted rfl
    rcases waits with ⟨-, phase⟩ | ⟨results, -, phase⟩
    · exact notTransmitted phase
    · exact notCompleted phase
  constructor
  · intro run stage stands' works'
    rw [nobody_works run stage stands'] at works'
    contradiction
  · intro run other stage stage' stands' works' _ _
    rw [nobody_works run stage stands'] at works'
    contradiction
  · intro run results stands'
    split at stands'
    · cases stands'
      rcases waits with ⟨impossible, -⟩ | ⟨_, -, phase⟩
      · contradiction
      · exact phase
    · have completed := balanced.completed run results stands'
      rw [completed] at active
      contradiction
  · intro idle
    exact absurd idle (not_of .idle (by decide) (by decide))
  · exact not_of .paused (by decide) (by decide)
  · exact not_of .exported (by decide) (by decide)
  · exact pending
  · exact received

/-- A run comes to its end. -/
theorem drop (balanced : Balanced stages session) (number : Nat) :
    Balanced (fun run => if run = number then none else stages run) session := by
  have earlier : ∀ run stage, (if run = number then none else stages run) = some stage →
      stages run = some stage := by
    intro run stage stands
    split at stands
    · contradiction
    · exact stands
  constructor
  · intro run stage stands works
    exact balanced.active run stage (earlier run stage stands) works
  · intro run other stage stage' stands works stands' works'
    exact balanced.single run other stage stage' (earlier run stage stands) works
      (earlier other stage' stands') works'
  · intro run results stands
    exact balanced.completed run results (earlier run _ stands)
  · intro idle run
    rw [balanced.idle idle run, ite_self]
  · exact balanced.notPaused
  · exact balanced.notExported
  · exact balanced.pending
  · exact balanced.received

end Balanced

/-- A host whose runs are numbered and go together with its session. -/
structure Orderly (host : Remote) : Prop where
  numbered : host.Numbered
  balanced : Balanced host.stage? host.session

/-- No run of a host works. -/
def Rests (host : Remote) : Prop :=
  ∀ run stage, host.stage? run = some stage → stage.isWorking = false

namespace Orderly

variable {host base : Remote}

theorem of_sameWork (orderly : host.Orderly) (same : host.SameWork base) : base.Orderly := by
  refine ⟨orderly.numbered.congr same.runs same.spawned, ?_⟩
  rw [stage?_congr same.runs, same.session]
  exact orderly.balanced

theorem spawn (orderly : host.Orderly) (runs : base.runs = host.runs)
    (spawned : base.spawned = host.spawned)
    (phase : host.session.phase = .idle ∨ host.session.phase = .transmitted)
    {snapshot : Option Snapshot} (active : base.session.phase.isActive = true)
    (pending : base.session.pending = none) (received : base.session.received = none) :
    (base.spawn snapshot).Orderly := by
  refine ⟨(orderly.numbered.congr runs spawned).spawn snapshot, ?_⟩
  rw [stage?_spawn_of orderly.numbered runs spawned]
  exact orderly.balanced.add phase host.spawned snapshot active pending received

theorem setStage (orderly : host.Orderly) (runs : base.runs = host.runs)
    (spawned : base.spawned = host.spawned) {run : Nat} {before after : Stage}
    (stands : host.stage? run = some before)
    (balanced : Balanced (fun other => if other = run then some after else host.stage? other)
      base.session) : (base.setStage run after).Orderly := by
  refine ⟨(orderly.numbered.congr runs spawned).setStage run after, ?_⟩
  rw [stage?_setStage_of runs stands]
  exact balanced

theorem removeRun (orderly : host.Orderly) (run : Nat) : (host.removeRun run).Orderly := by
  refine ⟨orderly.numbered.removeRun run, ?_⟩
  rw [funext (stage?_removeRun run)]
  exact orderly.balanced.drop run

theorem endRun (orderly : host.Orderly) (run : Nat) (notice : Notice) :
    (host.endRun run notice).Orderly :=
  (orderly.removeRun run).of_sameWork ⟨rfl, rfl, rfl, rfl⟩

/-- A computation can be received only before anything ran here, or after it was handed over. -/
theorem phase_of_edge (orderly : host.Orderly) {snapshot : Option Snapshot}
    (edge : host.session.phase.mayBecome (Session.phaseOnReceipt snapshot) = true) :
    host.session.phase = .idle ∨ host.session.phase = .transmitted := by
  rcases (Phase.mayBecome_phaseOnReceipt_iff _ _).mp edge with idle | transmitted | ⟨paused, -⟩
  · exact .inl idle
  · exact .inr transmitted
  · exact absurd paused orderly.balanced.notPaused

/-- No run works where a computation can be received or has ended. -/
theorem rests_of_inactive (orderly : host.Orderly) (inactive : host.session.phase.isActive = false) :
    host.Rests := by
  intro run stage stands
  cases works : stage.isWorking with
  | false => rfl
  | true =>
      rw [orderly.balanced.active run stage stands works] at inactive
      contradiction

/-- When the run that works has come to its end, no run works. -/
theorem rests_removeRun (orderly : host.Orderly) {run : Nat} {stage : Stage}
    (stands : host.stage? run = some stage) (works : stage.isWorking = true) :
    (host.removeRun run).Rests := by
  intro other stage' stands'
  rw [stage?_removeRun] at stands'
  split at stands'
  · cases stands'
  · rename_i differs
    cases works' : stage'.isWorking with
    | false => rfl
    | true =>
        exact absurd (orderly.balanced.single other run stage' stage stands' works' stands works)
          differs

/-- At most one run works. -/
theorem countP_isWorking_le_one (orderly : host.Orderly) :
    host.runs.countP (fun run => run.stage.isWorking) ≤ 1 := by
  have nodup : ((host.runs.filter fun run => run.stage.isWorking).map Run.id).Nodup :=
    orderly.numbered.nodup.sublist (List.filter_sublist.map _)
  have same : ∀ run ∈ host.runs.filter (fun run => run.stage.isWorking),
      ∀ other ∈ host.runs.filter (fun run => run.stage.isWorking), run.id = other.id := by
    intro run member other member'
    obtain ⟨isRun, works⟩ := List.mem_filter.mp member
    obtain ⟨isRun', works'⟩ := List.mem_filter.mp member'
    apply orderly.balanced.single run.id other.id run.stage other.stage
    · exact (stage?_eq_some_iff orderly.numbered).mpr isRun
    · exact works
    · exact (stage?_eq_some_iff orderly.numbered).mpr isRun'
    · exact works'
  rw [List.countP_eq_length_filter]
  cases working : host.runs.filter fun run => run.stage.isWorking with
  | nil => exact Nat.zero_le 1
  | cons first rest =>
      cases rest with
      | nil => exact Nat.le_refl 1
      | cons second rest =>
          rw [working] at nodup same
          have equal := same first (by simp) second (by simp)
          simp [equal] at nodup

end Orderly

theorem Stage.Next.works {config : Config} {before after : Stage} (next : before.Next config after) :
    before.isWorking = true ∧ after.isWorking = true := by
  cases next <;> exact ⟨rfl, rfl⟩

/-- Every step keeps the order. -/
theorem Moves.orderly {host next : Remote} {event : Event} {call : Option Call}
    (moves : host.Moves event next call) (orderly : host.Orderly) : next.Orderly := by
  have balanced := orderly.balanced
  cases moves with
  | starts starting immediately edge =>
      apply orderly.spawn
      · rfl
      · rfl
      · exact orderly.phase_of_edge edge
      · exact Phase.isActive_phaseOnReceipt _
      · exact balanced.pending
      · exact balanced.received
  | startRefused | waits | learns | elapses => exact orderly.of_sameWork ⟨rfl, rfl, rfl, rfl⟩
  | works stands next =>
      apply orderly.setStage
      · rfl
      · rfl
      · exact stands
      · exact balanced.work stands next.works.1 next.works.2
  | discards => exact orderly.removeRun _
  | completes returned up active =>
      apply orderly.setStage
      · rfl
      · rfl
      · exact returned
      · exact balanced.rest returned rfl (.inr ⟨_, rfl, rfl⟩) balanced.pending balanced.received
  | hands returned up active =>
      apply orderly.setStage
      · rfl
      · rfl
      · exact returned
      · exact balanced.rest returned rfl (.inl ⟨rfl, rfl⟩) rfl balanced.received
  | faults | misfits | stranded | acknowledged | unacknowledged => exact orderly.endRun _ _
  | relieved => exact orderly.removeRun _
  | accepts program sound edge =>
      apply orderly.spawn
      · rfl
      · rfl
      · exact orderly.phase_of_edge edge
      · exact Phase.isActive_phaseOnReceipt _
      · exact balanced.pending
      · rfl
  | declines | ignores => exact orderly
  | hears => exact orderly.of_sameWork (hear_sameWork _ _ _)
  | pressed => exact orderly.of_sameWork (press_sameWork _ _)
  | leaves => exact orderly.of_sameWork (conclude_sameWork _ _)

/-- A run that waits for a reply stays where it is until it gets one. -/
theorem Moves.stage?_of_resting {host next : Remote} {event : Event} {call : Option Call}
    (moves : host.Moves event next call) (numbered : host.Numbered) {run : Nat} {stage : Stage}
    (stands : host.stage? run = some stage) (resting : stage.isWorking = false)
    (unanswered : ∀ answer, event ≠ .answer run answer) : next.stage? run = some stage := by
  have not_working : ∀ before, host.stage? run = some before → before.isWorking ≠ true := by
    intro before stands' works
    rw [stands] at stands'
    cases stands'
    rw [resting] at works
    contradiction
  apply moves.stage?_of_other numbered stands
  -- What it could do by itself takes a stage in which it works.
  intro own
  cases moves with
  | works stands' onward belongs =>
      rcases belongs with rfl | rfl <;> cases own <;>
        exact not_working _ stands' onward.works.1
  | discards returned | completes returned | hands returned | faults returned | misfits returned =>
      cases own
      exact not_working _ returned rfl
  | relieved | stranded | acknowledged | unacknowledged =>
      cases own
      exact unanswered _ rfl
  | _ => cases own

/-- The host after several events, whose messages go their own way. -/
def follow : Remote → List Event → Option Remote
  | host, [] => some host
  | host, event :: rest => (host.step event).bind fun next => next.1.follow rest

/-- A host can come from one state to another. -/
def Reaches (host later : Remote) : Prop := ∃ events, host.follow events = some later

/-- What holds at first, and what every step keeps up, holds in every state that is reached. -/
theorem Reaches.induction {holds : Remote → Prop} {host later : Remote}
    (reaches : host.Reaches later) (at_first : holds host)
    (kept : ∀ before event after call, holds before → before.Moves event after call → holds after) :
    holds later := by
  rcases reaches with ⟨events, followed⟩
  induction events generalizing host with
  | nil =>
      cases followed
      exact at_first
  | cons event rest ih =>
      obtain ⟨⟨next, call⟩, stepped, followed⟩ := Option.bind_eq_some_iff.mp followed
      exact ih (kept host event next call at_first (moves_of_step stepped)) followed

theorem follow_append (host : Remote) (earlier later : List Event) :
    host.follow (earlier ++ later) = (host.follow earlier).bind fun between =>
      between.follow later := by
  induction earlier generalizing host with
  | nil => rfl
  | cons event rest ih =>
      rw [List.cons_append, follow, follow, Option.bind_assoc]
      congr 1
      funext next
      exact ih next.1

/-- What does not hold at first and holds later has come to hold in one step. -/
theorem exists_turn_of_follow (holds : Remote → Prop) {host later : Remote} {events : List Event}
    (followed : host.follow events = some later) (not_first : ¬ holds host) (at_last : holds later) :
    ∃ earlier event rest before after call, events = earlier ++ event :: rest ∧
      host.follow earlier = some before ∧ before.step event = some (after, call) ∧
      after.follow rest = some later ∧ ¬ holds before ∧ holds after := by
  induction events generalizing host with
  | nil =>
      cases followed
      contradiction
  | cons event rest ih =>
      obtain ⟨⟨next, call⟩, stepped, followed⟩ := Option.bind_eq_some_iff.mp followed
      by_cases now : holds next
      · exact ⟨[], event, rest, host, next, call, rfl, rfl, stepped, followed, not_first, now⟩
      · rcases ih followed now with
          ⟨earlier, event', rest', before, after, call', rfl, course, stepped', turn⟩
        refine ⟨event :: earlier, event', rest', before, after, call', rfl, ?_, stepped', turn⟩
        rw [follow, stepped]
        exact course

/-- The remote host of a configuration has no runs, and its session is idle. -/
theorem ofConfig?_eq_ok {config : Config} {id : SessionId} {directory : Directory} {host : Remote}
    (made : ofConfig? config id directory = .ok host) :
    host.config = config ∧ host.runs = [] ∧ host.spawned = 0 ∧ host.inbox = [] ∧
      host.session = { mode := config.mode, peer := config.peer, id } := by
  rw [ofConfig?, bind_eq_ok_iff] at made
  rcases made with ⟨basis, isBasis, made⟩
  rw [Host.ofConfig?, bind_eq_ok_iff] at isBasis
  rcases isBasis with ⟨caller, -, isBasis⟩
  cases isBasis
  split at made
  · cases made
    simp only [start]
    split
    · split <;> exact ⟨rfl, rfl, rfl, rfl, rfl⟩
    · exact ⟨rfl, rfl, rfl, rfl, rfl⟩
  · contradiction

/-- The main loop of a new host is about to begin, or has ended because there is no artifact to start
from. -/
theorem ofConfig?_loop {config : Config} {id : SessionId} {directory : Directory} {host : Remote}
    (made : ofConfig? config id directory = .ok host) :
    host.loop = .starting none ∨
      (∃ initial, Host.loadInitial config directory = .ok initial ∧ host.loop = .starting initial) ∨
      ∃ failure, Host.loadInitial config directory = .error failure ∧
        host.loop = .ended (.error failure) := by
  rw [ofConfig?, bind_eq_ok_iff] at made
  rcases made with ⟨basis, isBasis, made⟩
  rw [Host.ofConfig?, bind_eq_ok_iff] at isBasis
  rcases isBasis with ⟨caller, -, isBasis⟩
  cases isBasis
  split at made
  · cases made
    rw [start]
    split
    · cases loaded : Host.loadInitial config directory with
      | ok initial => exact .inr (.inl ⟨initial, rfl, rfl⟩)
      | error failure => exact .inr (.inr ⟨failure, rfl, rfl⟩)
    · exact .inl rfl
  · contradiction

theorem Orderly.ofConfig? {config : Config} {id : SessionId} {directory : Directory} {host : Remote}
    (made : ofConfig? config id directory = .ok host) : host.Orderly := by
  rcases ofConfig?_eq_ok made with ⟨-, runs, -, -, session⟩
  have none_runs : ∀ run, host.stage? run = none := fun run => by rw [stage?, runs]; rfl
  refine ⟨⟨by simp [runs], by simp [runs]⟩, ?_⟩
  rw [session]
  constructor <;> simp [none_runs]

theorem Orderly.reaches {host later : Remote} (orderly : host.Orderly)
    (reaches : host.Reaches later) : later.Orderly :=
  reaches.induction orderly fun _ _ _ _ orderly moves => moves.orderly orderly

end Ferry.Remote
