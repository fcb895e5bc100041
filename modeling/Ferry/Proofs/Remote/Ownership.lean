import Ferry.Proofs.Remote.Transitions

/-!
# Who owns a snapshot

A host comes by a snapshot when it starts from an artifact, when it takes over a computation, and
when its invocation pauses. It holds one snapshot at most: in the run that is about to resume it, or
in the run that has just captured it. From there the snapshot is used once: it is resumed, handed to
the peer, or dropped because the host has been shut down.
-/

namespace Ferry.Remote

/-- The snapshot that a run holds. -/
def Stage.snapshot? : Stage → Option Snapshot
  | .spawned snapshot => snapshot
  | .returned outcome => outcome.snapshot?
  | .invoking _ _ | .handing | .telling _ => none

/-- The snapshots that a host holds, in its session and in its runs. -/
def held (host : Remote) : List Snapshot :=
  host.session.pending.toList ++ host.session.received.toList ++
    host.runs.filterMap fun run => run.stage.snapshot?

/-- What a host does with a snapshot. -/
inductive Use where
  | resumed (snapshot : Snapshot)
  | transmitted (snapshot : Snapshot)
  | dropped (snapshot : Snapshot)
  deriving DecidableEq, Repr

/-- The snapshot that is used. -/
def Use.snapshot : Use → Snapshot
  | .resumed snapshot | .transmitted snapshot | .dropped snapshot => snapshot

/-- The snapshot that a host comes by in an event: that of its artifact, of a request that it takes
over, or of an invocation that pauses. -/
def gained (host : Remote) : Event → Option Snapshot
  | .begin =>
      match host.loop with
      | .starting initial =>
          if host.config.startImmediately ∧
              host.session.phase.mayBecome (Session.phaseOnReceipt initial) then initial
          else none
      | _ => none
  | .execute request =>
      match (host.takeOver request).1 with
      | .ok ⟨true⟩ => request.resumable?
      | _ => none
  | .turn run =>
      match host.stage? run with
      | some (.invoking _ invocation) =>
          match (host.toHost.turn invocation).1 with
          | .ended outcome => outcome.snapshot?
          | .going _ => none
      | _ => none
  | _ => none

/-- What a host does with a snapshot in an event, given the message that leaves it: it resumes one
that is valid, hands one to the peer, or drops one because it has been shut down. -/
def used (host : Remote) (event : Event) (call : Option Call) : Option Use :=
  match event with
  | .invoke run =>
      match host.stage? run with
      | some (.spawned snapshot) => (snapshot.filter (·.valid)).map .resumed
      | _ => none
  | .settle run =>
      match call, host.stage? run with
      | some (.execute request), _ => request.snapshot.map .transmitted
      | _, some (.returned outcome) =>
          if host.shutDown then outcome.snapshot?.map .dropped else none
      | _, _ => none
  | _ => none

/-- The snapshots that a host comes by in the course of several events. -/
def gains : Remote → List Event → List Snapshot
  | _, [] => []
  | host, event :: rest =>
      match host.step event with
      | none => []
      | some (next, _) => (host.gained event).toList ++ next.gains rest

/-- What a host does with snapshots in the course of several events. -/
def uses : Remote → List Event → List Use
  | _, [] => []
  | host, event :: rest =>
      match host.step event with
      | none => []
      | some (next, call) => (host.used event call).toList ++ next.uses rest

variable {host next : Remote} {event : Event} {call : Option Call}

theorem Stage.snapshot?_of_resting {stage : Stage} (resting : stage.isWorking = false) :
    stage.snapshot? = none := by
  cases stage <;> first | rfl | contradiction

/-- Entries that yield nothing can be left out. -/
private theorem filterMap_filter_of_none {α β : Type} {f : α → Option β} {keeps : α → Bool}
    {entries : List α} (yields : ∀ entry ∈ entries, keeps entry = false → f entry = none) :
    (entries.filter keeps).filterMap f = entries.filterMap f := by
  induction entries with
  | nil => rfl
  | cons entry rest ih =>
      have later := ih fun other member => yields other (List.mem_cons_of_mem _ member)
      cases kept : keeps entry with
      | true => rw [List.filter_cons_of_pos kept, List.filterMap_cons, List.filterMap_cons, later]
      | false =>
          have nothing := yields entry List.mem_cons_self kept
          rw [List.filter_cons_of_neg (Bool.eq_false_iff.mp kept), later,
            List.filterMap_cons_none nothing]

namespace Orderly

theorem held_eq_runs (orderly : host.Orderly) :
    host.held = host.runs.filterMap fun run => run.stage.snapshot? := by
  rw [held, orderly.balanced.pending, orderly.balanced.received]
  rfl

/-- Where no run works, no snapshot is held. -/
theorem held_of_rests (orderly : host.Orderly) (rests : host.Rests) : host.held = [] := by
  rw [orderly.held_eq_runs]
  apply List.filterMap_eq_nil_iff.mpr
  intro run member
  apply Stage.snapshot?_of_resting
  exact rests run.id run.stage ((stage?_eq_some_iff orderly.numbered).mpr member)

/-- The only snapshot that is held is that of the run that works. -/
theorem held_of_working (orderly : host.Orderly) {run : Nat} {stage : Stage}
    (stands : host.stage? run = some stage) (works : stage.isWorking = true) :
    host.held = stage.snapshot?.toList := by
  have member : (⟨run, stage⟩ : Run) ∈ host.runs.filter fun run => run.stage.isWorking :=
    List.mem_filter.mpr ⟨(stage?_eq_some_iff orderly.numbered).mp stands, works⟩
  have single := orderly.countP_isWorking_le_one
  rw [List.countP_eq_length_filter] at single
  have alone : (host.runs.filter fun run => run.stage.isWorking) = [⟨run, stage⟩] := by
    rcases List.length_eq_one_iff.mp
      (Nat.le_antisymm single (List.length_pos_of_mem member)) with ⟨only, isOnly⟩
    rw [isOnly] at member ⊢
    rw [List.mem_singleton.mp member]
  have workers := filterMap_filter_of_none (f := fun run : Run => run.stage.snapshot?)
    fun (run : Run) (_ : run ∈ host.runs) (resting : run.stage.isWorking = false) =>
      Stage.snapshot?_of_resting resting
  rw [orderly.held_eq_runs, ← workers, alone]
  cases found : stage.snapshot? <;> simp [found]

theorem held_length_le_one (orderly : host.Orderly) : host.held.length ≤ 1 := by
  by_cases working : ∃ run stage, host.stage? run = some stage ∧ stage.isWorking = true
  · rcases working with ⟨run, stage, stands, works⟩
    rw [orderly.held_of_working stands works]
    cases stage.snapshot? <;> simp
  · have rests : host.Rests := fun run stage stands =>
      Bool.eq_false_iff.mpr fun works => working ⟨run, stage, stands, works⟩
    rw [orderly.held_of_rests rests]
    exact Nat.zero_le 1

/-- A run that waits for a reply holds no snapshot. -/
theorem held_removeRun (orderly : host.Orderly) {run : Nat} {stage : Stage}
    (stands : host.stage? run = some stage) (resting : stage.isWorking = false) :
    (host.removeRun run).held = host.held := by
  rw [(Orderly.removeRun orderly run).held_eq_runs, orderly.held_eq_runs, Remote.removeRun]
  apply filterMap_filter_of_none
  intro other member removed
  have same : other.id = run := by simpa using removed
  have isStage := (stage?_eq_some_iff orderly.numbered).mpr member
  rw [same, stands] at isStage
  cases isStage
  exact Stage.snapshot?_of_resting resting

end Orderly

/-- The snapshots that are about to be resumed are valid. -/
structure Startable (host : Remote) : Prop where
  starting : ∀ snapshot, host.loop = .starting (some snapshot) → snapshot.valid = true
  spawned : ∀ run snapshot, host.stage? run = some (.spawned (some snapshot)) →
    snapshot.valid = true

/-- A run that is about to begin was so before, or has just been added. -/
theorem Moves.spawned_cases (moves : host.Moves event next call) (numbered : host.Numbered)
    {run : Nat} {snapshot : Option Snapshot} (spawned : next.stage? run = some (.spawned snapshot)) :
    host.stage? run = some (.spawned snapshot) ∨ host.loop = .starting snapshot ∨
      ∃ request : Peer.ExecuteRequest, snapshot = request.resumable? := by
  rcases moves.stage_cases numbered spawned with earlier | arises
  · exact .inl earlier
  · cases arises with
    | added _ source => exact .inr source
    | works _ onward => cases onward

theorem Moves.startable (moves : host.Moves event next call) (numbered : host.Numbered)
    (startable : host.Startable) : next.Startable := by
  constructor
  · intro snapshot starting
    exact startable.starting snapshot (moves.starting_of_starting starting)
  · intro run snapshot spawned
    rcases moves.spawned_cases numbered spawned with earlier | starting | ⟨request, resumable⟩
    · exact startable.spawned run snapshot earlier
    · exact startable.starting snapshot starting
    · exact (Option.filter_eq_some_iff.mp resumable.symm).2

/-- The host holds the snapshot of a run that has just been added. -/
theorem Orderly.held_spawn {snapshot : Option Snapshot} (orderly : (host.spawn snapshot).Orderly)
    (numbered : host.Numbered) : (host.spawn snapshot).held = snapshot.toList := by
  have stands : (host.spawn snapshot).stage? host.spawned = some (.spawned snapshot) := by
    rw [stage?_spawn numbered, if_pos rfl]
  exact orderly.held_of_working stands rfl

/-- The host holds the snapshot of a run that gets on. -/
theorem Orderly.held_setStage {run : Nat} {before after : Stage}
    (orderly : (host.setStage run after).Orderly) (stands : host.stage? run = some before)
    (works : after.isWorking = true) : (host.setStage run after).held = after.snapshot?.toList := by
  have stands' : (host.setStage run after).stage? run = some after := by
    rw [stage?_setStage_of_some stands, if_pos rfl]
  exact orderly.held_of_working stands' works

theorem SameWork.held_eq (same : host.SameWork next) : next.held = host.held := by
  rw [held, held, same.session, same.runs]

/-- What a host held and came by in an event is used in it or held after it. -/
def Accounts (host : Remote) (event : Event) (call : Option Call) (next : Remote) : Prop :=
  host.held ++ (host.gained event).toList =
    (host.used event call).toList.map Use.snapshot ++ next.held

private theorem accounts_of_silent (gained : host.gained event = none)
    (used : host.used event call = none) (held : next.held = host.held) :
    host.Accounts event call next := by
  rw [Accounts, gained, used, held, Option.toList_none, Option.toList_none, List.map_nil,
    List.append_nil, List.nil_append]

/-- A run that begins its invocation resumes its snapshot. -/
private theorem accounts_invoke (orderly : host.Orderly) (startable : host.Startable) {run : Nat}
    {snapshot : Option Snapshot} (spawned : host.stage? run = some (.spawned snapshot)) :
    host.Accounts (.invoke run) none (host.beginInvocation run snapshot) := by
  have orderlyNext := (beginInvocation_moves spawned).orderly orderly
  have nothing : (host.beginInvocation run snapshot).held = [] := by
    simp only [beginInvocation] at orderlyNext ⊢
    cases invoked : Host.invoke host.config snapshot with
    | ok invocation =>
        simp only [invoked] at orderlyNext
        exact orderlyNext.held_setStage spawned rfl
    | error fault =>
        simp only [invoked] at orderlyNext
        exact orderlyNext.held_setStage spawned rfl
  have used : host.used (.invoke run) none = snapshot.map .resumed := by
    simp only [used, spawned]
    cases snapshot with
    | none => rfl
    | some snapshot =>
        rw [Option.filter_some, if_pos (startable.spawned run snapshot spawned)]
  rw [Accounts, nothing, used, orderly.held_of_working spawned rfl]
  cases snapshot <;> rfl

/-- A run that pauses has a snapshot. -/
private theorem accounts_turn (orderly : host.Orderly) {run guard : Nat} {invocation : Invocation}
    (invoking : host.stage? run = some (.invoking guard invocation)) :
    host.Accounts (.turn run) none (host.turnRun run guard invocation) := by
  have orderlyNext := (turnRun_moves invoking).orderly orderly
  rw [Accounts, orderly.held_of_working invoking rfl]
  simp only [turnRun, gained, invoking] at orderlyNext ⊢
  rcases turned : host.toHost.turn invocation with ⟨going | ended, after⟩
  · simp only [turned] at orderlyNext ⊢
    rw [orderlyNext.held_setStage invoking rfl]
    rfl
  · simp only [turned] at orderlyNext ⊢
    rw [orderlyNext.held_setStage invoking rfl]
    rfl

/-- Every other step accounts for its snapshots. -/
private theorem Moves.accounts (moves : host.Moves event next call) (orderly : host.Orderly)
    (notInvoke : ∀ run, event ≠ .invoke run) (notTurn : ∀ run, event ≠ .turn run) :
    host.Accounts event call next := by
  have orderlyNext := moves.orderly orderly
  have inactive_of_edge : ∀ snapshot,
      host.session.phase.mayBecome (Session.phaseOnReceipt snapshot) = true →
      host.session.phase.isActive = false := by
    intro snapshot edge
    rcases orderly.phase_of_edge edge with idle | transmitted
    · rw [idle]
      rfl
    · rw [transmitted]
      rfl
  cases moves with
  | works _ _ own =>
      rcases own with rfl | rfl
      · exact absurd rfl (notInvoke _)
      · exact absurd rfl (notTurn _)
  | starts starting immediately edge =>
      have nothing := orderly.held_of_rests (orderly.rests_of_inactive (inactive_of_edge _ edge))
      rw [Accounts, nothing, orderlyNext.held_spawn (orderly.numbered.congr rfl rfl)]
      simp [gained, used, starting, immediately, edge]
  | startRefused starting immediately noEdge =>
      apply accounts_of_silent
      · simp [gained, starting, noEdge]
      · rfl
      · rfl
  | waits starting waiting =>
      apply accounts_of_silent
      · simp [gained, starting, waiting]
      · rfl
      · rfl
  | accepts program sound edge =>
      have nothing := orderly.held_of_rests (orderly.rests_of_inactive (inactive_of_edge _ edge))
      have accepted := takeOver_accepts_iff.mpr ⟨program, sound, edge⟩
      rw [Accounts, nothing, orderlyNext.held_spawn (orderly.numbered.congr rfl rfl)]
      simp [gained, used, accepted]
  | declines refused =>
      apply accounts_of_silent
      · simp only [gained]
      · rfl
      · rfl
  | @discards run outcome returned down =>
      have nothing := orderlyNext.held_of_rests (orderly.rests_removeRun returned rfl)
      rw [Accounts, nothing, orderly.held_of_working returned rfl]
      simp only [gained, used, returned, down, Stage.snapshot?]
      cases outcome.snapshot? <;> rfl
  | completes returned up active =>
      have nothing := orderlyNext.held_of_rests (orderlyNext.rests_of_inactive rfl)
      rw [Accounts, nothing, orderly.held_of_working returned rfl]
      simp [gained, used, returned, up, Stage.snapshot?, Outcome.snapshot?]
  | hands returned up active =>
      have nothing := orderlyNext.held_of_rests (orderlyNext.rests_of_inactive rfl)
      rw [Accounts, nothing, orderly.held_of_working returned rfl]
      rfl
  | faults returned up =>
      have nothing : (host.endRun _ _).held = [] :=
        orderlyNext.held_of_rests (orderly.rests_removeRun returned rfl)
      rw [Accounts, nothing, orderly.held_of_working returned rfl]
      simp [gained, used, returned, up, Stage.snapshot?, Outcome.snapshot?]
  | misfits returned _ inactive =>
      rw [orderly.balanced.active _ _ returned rfl] at inactive
      contradiction
  | relieved handing => exact accounts_of_silent rfl rfl (orderly.held_removeRun handing rfl)
  | stranded handing => exact accounts_of_silent rfl rfl (orderly.held_removeRun handing rfl)
  | acknowledged telling | unacknowledged telling =>
      exact accounts_of_silent rfl rfl (orderly.held_removeRun telling rfl)
  | learns | ignores | elapses => exact accounts_of_silent rfl rfl rfl
  | hears => exact accounts_of_silent rfl rfl (hear_sameWork _ _ _).held_eq
  | pressed => exact accounts_of_silent rfl rfl (press_sameWork _ _).held_eq
  | leaves => exact accounts_of_silent rfl rfl (conclude_sameWork _ _).held_eq

/-- Every step accounts for its snapshots. -/
theorem accounts_of_step (orderly : host.Orderly) (startable : host.Startable)
    (stepped : host.step event = some (next, call)) : host.Accounts event call next := by
  have moves := moves_of_step stepped
  cases event with
  | invoke run =>
      simp only [step] at stepped
      split at stepped
      · rename_i spawned
        cases stepped
        exact accounts_invoke orderly startable spawned
      · cases stepped
  | turn run =>
      simp only [step] at stepped
      split at stepped
      · rename_i invoking
        cases stepped
        exact accounts_turn orderly invoking
      · cases stepped
  | _ => exact moves.accounts orderly (by simp) (by simp)

/-- Over a whole course, what came in is what was used, in the same order, and then what is held. -/
theorem accounts_of_follow (orderly : host.Orderly) (startable : host.Startable)
    {events : List Event} {later : Remote} (followed : host.follow events = some later) :
    host.held ++ host.gains events = (host.uses events).map Use.snapshot ++ later.held := by
  induction events generalizing host with
  | nil =>
      cases followed
      simp [gains, uses]
  | cons event rest ih =>
      obtain ⟨⟨next, call⟩, stepped, followed⟩ := Option.bind_eq_some_iff.mp followed
      have moves := moves_of_step stepped
      have onward := ih (moves.orderly orderly) (moves.startable orderly.numbered startable) followed
      have here : host.held ++ (host.gained event).toList =
        (host.used event call).toList.map Use.snapshot ++ next.held :=
        accounts_of_step orderly startable stepped
      simp only [gains, uses, stepped, List.map_append]
      rw [← List.append_assoc, here, List.append_assoc, onward, List.append_assoc]

/-- The remote host of a configuration holds nothing yet. -/
theorem Startable.ofConfig? {config : Config} {id : SessionId} {directory : Directory}
    (made : ofConfig? config id directory = .ok host) : host.Startable := by
  rcases ofConfig?_eq_ok made with ⟨-, runs, -, -, -⟩
  constructor
  · intro snapshot starting
    rcases ofConfig?_loop made with fresh | ⟨initial, loaded, loop⟩ | ⟨failure, -, loop⟩
    · rw [fresh] at starting
      cases starting
    · rw [loop] at starting
      cases starting
      exact Host.valid_of_loadInitial loaded
    · rw [loop] at starting
      cases starting
  · intro run snapshot spawned
    rw [stage?, runs] at spawned
    cases spawned

/-- What holds in every state of a host, after a course of events, whenever nobody is at work on its
session. -/
structure SoleOwner (origin : Remote) (events : List Event) (host : Remote) : Prop where
  /-- At most one run is about to begin its invocation, in it, or about to deal with its outcome. -/
  single : host.runs.countP (fun run => run.stage.isWorking) ≤ 1
  active : ∀ run ∈ host.runs, run.stage.isWorking = true →
    host.session.phase = .running ∨ host.session.phase = .resuming
  pending : host.session.pending = none
  received : host.session.received = none
  /-- While a run works, every computation is refused, and this changes nothing. -/
  refuses : ∀ run ∈ host.runs, run.stage.isWorking = true → ∀ request,
    (host.takeOver request).1 ≠ .ok ⟨true⟩ ∧ (host.takeOver request).2 = host
  /-- What came in was used once, in the same order, except for what is still held. -/
  accounted : origin.gains events = (origin.uses events).map Use.snapshot ++ host.held
  held_length_le : host.held.length ≤ 1

/-- At most one run works at a time, it works in an active phase, and every snapshot that a host comes
by has one owner and is used once at most. -/
theorem sole_owner {config : Config} {id : SessionId} {directory : Directory} {origin host : Remote}
    {events : List Event} (made : ofConfig? config id directory = .ok origin)
    (followed : origin.follow events = some host) : SoleOwner origin events host := by
  have first : origin.Orderly := .ofConfig? made
  have orderly : host.Orderly := first.reaches ⟨events, followed⟩
  have active : ∀ run ∈ host.runs, run.stage.isWorking = true →
      host.session.phase.isActive = true := by
    intro run member works
    have stands := (stage?_eq_some_iff orderly.numbered).mpr member
    exact orderly.balanced.active run.id run.stage stands works
  constructor
  case single => exact orderly.countP_isWorking_le_one
  case active =>
    intro run member works
    have isActive := active run member works
    cases phase : host.session.phase <;> simp_all [Phase.isActive]
  case pending => exact orderly.balanced.pending
  case received => exact orderly.balanced.received
  case refuses =>
    intro run member works request
    apply takeOver_of_not_takes
    intro takes
    have edge := takes.edge
    rw [Phase.not_mayBecome_of_isActive (active run member works)] at edge
    contradiction
  case accounted =>
    have nothing : origin.Rests := by
      rcases ofConfig?_eq_ok made with ⟨-, runs, -, -, -⟩
      intro run stage stands
      rw [stage?, runs] at stands
      cases stands
    have accounts := accounts_of_follow first (.ofConfig? made) followed
    rw [first.held_of_rests nothing, List.nil_append] at accounts
    exact accounts
  case held_length_le => exact orderly.held_length_le_one

/-- A host starts, pauses before its first instruction, and hands its snapshot to the peer; then it
holds nothing. When it has taken over the computation again, it refuses any other. -/
theorem sole_owner_stepping :
    ∃ origin gone back, ofConfig? steppingFib steppingId {} = .ok origin ∧
      origin.follow [.begin, .invoke 0, .turn 0, .settle 0] = some gone ∧
      origin.gains [.begin, .invoke 0, .turn 0, .settle 0] = [⟨true, [⟨0, 0, [9], []⟩], 0⟩] ∧
      (origin.uses [.begin, .invoke 0, .turn 0, .settle 0]).map Use.snapshot ++ gone.held =
        [⟨true, [⟨0, 0, [9], []⟩], 0⟩] ∧
      gone.held = [] ∧
      gone.follow [.execute (.resume steppingId "fib" ⟨true, [⟨0, 0, [9], []⟩], 0⟩)] = some back ∧
      back.held = [⟨true, [⟨0, 0, [9], []⟩], 0⟩] ∧
      ∀ request, (back.takeOver request).1 ≠ .ok ⟨true⟩ := by
  have course : ∃ origin gone back, ofConfig? steppingFib steppingId {} = .ok origin ∧
      origin.follow [.begin, .invoke 0, .turn 0, .settle 0] = some gone ∧
      origin.gains [.begin, .invoke 0, .turn 0, .settle 0] = [⟨true, [⟨0, 0, [9], []⟩], 0⟩] ∧
      gone.held = [] ∧
      gone.follow [.execute (.resume steppingId "fib" ⟨true, [⟨0, 0, [9], []⟩], 0⟩)] = some back ∧
      back.held = [⟨true, [⟨0, 0, [9], []⟩], 0⟩] ∧
      back.runs = [⟨0, .handing⟩, ⟨1, .spawned (some ⟨true, [⟨0, 0, [9], []⟩], 0⟩)⟩] :=
    ⟨_, _, _, rfl, rfl, rfl, rfl, rfl, rfl, rfl⟩
  rcases course with ⟨origin, gone, back, made, followed, gains, released, onward, held, runs⟩
  have accounted := (sole_owner made followed).accounted
  have returned : origin.follow ([.begin, .invoke 0, .turn 0, .settle 0] ++
      [.execute (.resume steppingId "fib" ⟨true, [⟨0, 0, [9], []⟩], 0⟩)]) = some back := by
    rw [follow_append, followed]
    exact onward
  have refuses := (sole_owner made returned).refuses
    ⟨1, .spawned (some ⟨true, [⟨0, 0, [9], []⟩], 0⟩)⟩ (by simp [runs]) rfl
  exact ⟨origin, gone, back, made, followed, gains, accounted.symm.trans gains, released, onward,
    held, fun request => (refuses request).1⟩

end Ferry.Remote
