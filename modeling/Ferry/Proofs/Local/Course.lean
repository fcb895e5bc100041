import Ferry.Host.Local.Play
import Ferry.Proofs.Local.Account

/-!
# The course of a local host

A course lists what happened to a host, newest first. Invocations divide it: what the host may do at
a gate depends only on what the operator did since the last invocation began. A gate was opened in
advance exactly if the key for it was pressed during that invocation, however often it was pressed;
so every invocation that begins under the manual policy has a key press of its own.
-/

namespace Ferry.Local

/-- Something that happened to a host. -/
structure Entry where
  before : Local
  event : Event
  after : Local

namespace Entry

/-- Whether an invocation begins. -/
def begins (entry : Entry) : Bool := entry.before.controller.begun < entry.after.controller.begun

/-- Whether the operator opens the next gate in advance. -/
def queues (entry : Entry) : Bool := entry.before.isRunning && entry.event = .key .resumeOrRun

/-- Whether the operator opens a gate: the next one in advance, or the one at which the host stands.
-/
def opens (entry : Entry) : Bool :=
  match entry.event with
  | .key .resumeOrRun => true
  | .key .snapshotNow => !entry.before.isRunning
  | _ => false

/-- Whether the host does something by itself. -/
def proceeds (entry : Entry) : Bool := entry.event = .proceed

end Entry

/-- The course of a host: what happened to it, newest first, and what it is then. -/
inductive Course (origin : Local) : List Entry → Local → Prop where
  | nil : Course origin [] origin
  | cons {entries : List Entry} {before after : Local} {event : Event}
      (earlier : Course origin entries before) (stepped : before.step event = some after) :
      Course origin (⟨before, event, after⟩ :: entries) after

/-- What happened since the last invocation began. -/
def recent (entries : List Entry) : List Entry := entries.takeWhile fun entry => !entry.begins

/-- Whether the operator has opened the next gate since the last invocation began. -/
def granted (entries : List Entry) : Bool := (recent entries).any Entry.queues

variable {origin host next : Local} {event : Event} {entry : Entry} {entries : List Entry}
  {config : Config} {id : SessionId} {directory : Directory} {keyboardOpen : Bool}

section Recent

theorem countP_cons_eq (p : Entry → Bool) :
    (entry :: entries).countP p = entries.countP p + (p entry).toNat := by
  rw [List.countP_cons]
  cases p entry <;> rfl

theorem recent_of_begins (begins : entry.begins = true) : recent (entry :: entries) = [] := by
  simp [recent, begins]

theorem recent_of_silent (silent : entry.begins = false) :
    recent (entry :: entries) = entry :: recent entries := by
  simp [recent, silent]

theorem granted_of_begins (begins : entry.begins = true) : granted (entry :: entries) = false := by
  rw [granted, recent_of_begins begins]
  rfl

theorem granted_of_silent (silent : entry.begins = false) :
    granted (entry :: entries) = (entry.queues || granted entries) := by
  rw [granted, recent_of_silent silent]
  rfl

end Recent

/-- The entries of a run, after earlier ones. -/
def history (host : Local) : List Event → List Entry → List Entry
  | [], earlier => earlier
  | event :: rest, earlier =>
      match host.step event with
      | none => earlier
      | some next => next.history rest (⟨host, event, next⟩ :: earlier)

/-- A run is a course. -/
theorem Course.run (course : Course origin entries host) {events : List Event}
    (ran : host.run events = some next) : Course origin (host.history events entries) next := by
  induction events generalizing host entries with
  | nil =>
      cases ran
      exact course
  | cons event rest ih =>
      obtain ⟨after, stepped, ran⟩ := Option.bind_eq_some_iff.mp ran
      rw [history, stepped]
      exact ih (.cons course stepped) ran

theorem Launched.not_aborted {pending : Option Snapshot} (launched : host.Launched pending next) :
    next.stage ≠ .ended (.ok .aborted) := by
  cases launched <;> simp

theorem Settled.not_aborted {outcome : Outcome Fault} (settled : host.Settled outcome next) :
    next.stage ≠ .ended (.ok .aborted) := by
  cases settled <;> simp

/-- No invocation begins when a run is aborted. -/
theorem begun_of_aborted (stepped : host.step event = some next)
    (aborted : next.stage = .ended (.ok .aborted)) :
    next.controller.begun = host.controller.begun := by
  cases event with
  | proceed =>
      rw [step, proceed] at stepped
      split at stepped
      · split at stepped
        · cases stepped
          exact absurd aborted (launch_launched _ _).not_aborted
        · split at stepped
          · cases stepped
            exact absurd aborted (launch_launched _ _).not_aborted
          · split at stepped
            · cases stepped
            · cases stepped
              rfl
      · cases stepped
        rw [turn] at aborted
        split at aborted
        · cases aborted
        · exact absurd aborted (settle_settled _ _).not_aborted
      · cases stepped
  | key action =>
      rw [step] at stepped
      split at stepped
      · rw [press] at stepped
        split at stepped
        · split at stepped
          · cases action with
            | resumeOrRun | snapshotNow =>
                cases stepped
                exact absurd aborted (launch_launched _ _).not_aborted
            | abort =>
                cases stepped
                rfl
          · cases stepped
        · cases action with
          | resumeOrRun | snapshotNow =>
              cases stepped
              rfl
          | abort =>
              cases stepped
              exact Controller.begun_drop _ _
        · cases stepped
      · cases stepped
  | closeKeyboard =>
      rw [step] at stepped
      split at stepped
      · cases stepped
        rfl
      · cases stepped
  | elapse milliseconds =>
      cases stepped
      rfl

/-- A run that has ended stays as it is, whatever happens around it. -/
theorem step_of_ended {result : Except Failure Exit} (ended : host.stage = .ended result)
    (stepped : host.step event = some next) :
    next.stage = .ended result ∧ next.controller.begun = host.controller.begun ∧
      next.directory = host.directory := by
  cases event with
  | proceed => simp [step, proceed, ended] at stepped
  | key action => simp [step, press, ended] at stepped
  | closeKeyboard =>
      rw [step] at stepped
      split at stepped
      · cases stepped
        exact ⟨ended, rfl, rfl⟩
      · cases stepped
  | elapse milliseconds =>
      cases stepped
      exact ⟨ended, rfl, rfl⟩

theorem stage_of_queues (queues : Entry.queues ⟨host, event, next⟩ = true)
    (stepped : host.step event = some next) : ∃ guard invocation,
      next.stage = .running guard invocation := by
  obtain ⟨running, pressed⟩ := (Bool.and_eq_true _ _).mp queues
  obtain rfl := of_decide_eq_true pressed
  rw [step] at stepped
  split at stepped
  · cases stage : host.stage with
    | running guard invocation =>
        rw [press, stage] at stepped
        cases stepped
        exact ⟨guard, invocation, rfl⟩
    | gate | ended => simp [isRunning, stage] at running
  · cases stepped

theorem begins_of_launched {pending : Option Snapshot} {opened : Local} (orderly : host.Orderly)
    (gate : host.stage = .gate pending) (opens : host.Opens event opened)
    (launched : opened.Launched pending next) : Entry.begins ⟨host, event, next⟩ = true := by
  have begun : next.controller.begun = host.controller.begun + 1 := by
    have edge := mayLaunch_of_free (orderly.gate _ gate)
    cases opens <;> exact launched.begun_eq edge
  simp [Entry.begins, begun]

theorem silent_of_begun_eq (same : next.controller.begun = host.controller.begun) :
    Entry.begins ⟨host, event, next⟩ = false := by
  simp [Entry.begins, same]

theorem Opens.queued_eq {opened : Local} (opens : host.Opens event opened)
    (manual : host.config.policy.isManual = true) : opened.queued = false := by
  cases opens with
  | free unguarded =>
      rw [manual] at unguarded
      cases unguarded
  | queued => rfl
  | resumes _ waits | requests _ waits => exact waits

/-- What opens a gate was pressed in advance, or it is pressed now. -/
theorem Opens.paid {pending : Option Snapshot} {opened : Local} (opens : host.Opens event opened)
    (manual : host.config.policy.isManual = true) (gate : host.stage = .gate pending) :
    1 ≤ host.queued.toNat + (Entry.opens ⟨host, event, next⟩).toNat := by
  cases opens with
  | free unguarded =>
      rw [manual] at unguarded
      cases unguarded
  | queued _ queued => simp [queued]
  | resumes => simp [Entry.opens]
  | requests => simp [Entry.opens, isRunning, gate]

theorem Opens.directory_eq {opened : Local} (opens : host.Opens event opened) :
    opened.directory = host.directory := by
  cases opens <;> rfl

theorem Launched.directory_eq {pending : Option Snapshot} (launched : host.Launched pending next) :
    next.directory = host.directory := by
  cases launched <;> rfl

theorem Launched.queued_eq {pending : Option Snapshot} (launched : host.Launched pending next) :
    next.queued = host.queued := by
  cases launched <;> rfl

theorem Settled.queued_eq {outcome : Outcome Fault} (settled : host.Settled outcome next) :
    next.queued = host.queued := by
  cases settled <;> rfl

/-- What is true of a host at any time under the manual policy. -/
structure Kept (origin : Local) (entries : List Entry) (host : Local) : Prop where
  orderly : host.Orderly
  config_eq : host.config = origin.config
  queued_eq : host.queued = granted entries
  /-- Only an end of the computation itself touches the files. -/
  untouched : (∀ result, host.stage = .ended result → result = .ok .aborted) →
    host.directory = origin.directory
  valid : ∀ snapshot, host.stage = .gate (some snapshot) → snapshot.valid = true
  /-- Every invocation that has begun, and one that may begin, has been paid for with a key. -/
  paid : entries.countP Entry.begins + host.queued.toNat ≤ entries.countP Entry.opens

theorem Kept.of_begins {pending : Option Snapshot} {opened : Local}
    (kept : Kept origin entries host) (manual : host.config.policy.isManual = true)
    (gate : host.stage = .gate pending) (opens : host.Opens event opened)
    (launched : opened.Launched pending next) (stepped : host.step event = some next) :
    Kept origin (⟨host, event, next⟩ :: entries) next := by
  have moves := moves_of_step stepped
  have begins := begins_of_launched kept.orderly gate opens launched
  have unqueued : next.queued = false := launched.queued_eq.trans (opens.queued_eq manual)
  constructor
  case orderly => exact moves.orderly kept.orderly
  case config_eq => exact moves.config_eq.trans kept.config_eq
  case queued_eq => rw [unqueued, granted_of_begins begins]
  case untouched =>
    intro _
    rw [launched.directory_eq, opens.directory_eq]
    exact kept.untouched (by simp [gate])
  case valid => cases launched <;> simp
  case paid =>
    have paid := kept.paid
    have price := @Opens.paid host next event pending opened opens manual gate
    rw [countP_cons_eq, countP_cons_eq, begins, unqueued]
    simp only [Bool.toNat_true, Bool.toNat_false]
    omega

theorem Kept.of_silent (kept : Kept origin entries host) (stepped : host.step event = some next)
    (silent : Entry.begins ⟨host, event, next⟩ = false)
    (queued : next.queued = (Entry.queues ⟨host, event, next⟩ || host.queued))
    (price : next.queued.toNat ≤ host.queued.toNat + (Entry.opens ⟨host, event, next⟩).toNat)
    (untouched : (∀ result, next.stage = .ended result → result = .ok .aborted) →
      next.directory = origin.directory)
    (valid : ∀ snapshot, next.stage = .gate (some snapshot) → snapshot.valid = true) :
    Kept origin (⟨host, event, next⟩ :: entries) next := by
  have moves := moves_of_step stepped
  constructor
  case orderly => exact moves.orderly kept.orderly
  case config_eq => exact moves.config_eq.trans kept.config_eq
  case queued_eq => rw [queued, granted_of_silent silent, kept.queued_eq]
  case untouched => exact untouched
  case valid => exact valid
  case paid =>
    have paid := kept.paid
    rw [countP_cons_eq, countP_cons_eq, silent]
    simp only [Bool.toNat_false]
    omega

/-- What a pause leads to is the next gate, or an end after an attempt to write a file. -/
theorem Settled.untouched {outcome : Outcome Fault} (settled : host.Settled outcome next)
    (goes : ∀ result, next.stage = .ended result → result = .ok .aborted) :
    next.directory = host.directory := by
  cases settled with
  | completes | pauses | faults | misfits => rfl
  | exports | unwritten => cases goes _ rfl

theorem Settled.gate_eq {outcome : Outcome Fault} {snapshot : Snapshot}
    (settled : host.Settled outcome next) (gate : next.stage = .gate (some snapshot)) :
    outcome = .paused snapshot := by
  cases settled with
  | pauses =>
      cases gate
      rfl
  | completes | exports | unwritten | faults | misfits => cases gate

theorem Kept.step (kept : Kept origin entries host) (manual : host.config.policy.isManual = true)
    (stepped : host.step event = some next) :
    Kept origin (⟨host, event, next⟩ :: entries) next := by
  cases moves_of_step stepped with
  | launches gate opens launched => exact kept.of_begins manual gate opens launched stepped
  | goes running =>
      refine kept.of_silent stepped (silent_of_begun_eq rfl) ?_ (Nat.le_add_right _ _) ?_ (by simp)
      · simp [Entry.queues]
      · exact fun _ => kept.untouched (by simp [running])
  | @settles guard invocation outcome left _ running ended settled =>
      have silent : next.controller.begun = host.controller.begun :=
        settled.begun_eq.trans (Controller.begun_drop _ _)
      refine kept.of_silent stepped (silent_of_begun_eq silent) ?_ ?_ ?_ ?_
      · rw [settled.queued_eq]
        simp [Entry.queues]
      · rw [settled.queued_eq]
        exact Nat.le_add_right _ _
      · intro goes
        rw [settled.untouched goes]
        exact kept.untouched (by simp [running])
      · intro snapshot gate
        obtain rfl := settled.gate_eq gate
        rcases ended with ⟨-, same⟩ | ⟨-, stops⟩
        · cases same
          rfl
        · cases Engine.not_isPaused_of_end? stops
  | aborts cause =>
      refine kept.of_silent stepped (silent_of_begun_eq (begun_of_aborted stepped rfl)) ?_
        (Nat.le_add_right _ _) ?_ (by simp)
      · cases queues : Entry.queues _
        · rfl
        · obtain ⟨_, _, running⟩ := stage_of_queues queues stepped
          cases running
      · intro _
        apply kept.untouched
        intro result ended
        exact (Stage.ended.inj (step_of_ended ended stepped).1).symm
  | queues running =>
      refine kept.of_silent stepped (silent_of_begun_eq rfl) ?_ ?_ ?_ ?_
      · simp [Entry.queues, isRunning, running]
      · simp [Entry.opens]
      · exact fun _ => kept.untouched (by simp [running])
      · simp [running]
  | requests running =>
      refine kept.of_silent stepped (silent_of_begun_eq rfl) ?_ (Nat.le_add_right _ _) ?_ ?_
      · simp [Entry.queues]
      · exact fun _ => kept.untouched (by simp [running])
      · simp [running]
  | closes | elapses =>
      refine kept.of_silent stepped (silent_of_begun_eq rfl) ?_ (Nat.le_add_right _ _)
        kept.untouched kept.valid
      simp [Entry.queues]

theorem Kept.ofConfig? (made : ofConfig? config id directory keyboardOpen = .ok origin) :
    Kept origin [] origin := by
  have orderly := Orderly.ofConfig? made
  rw [Local.ofConfig?, bind_eq_ok_iff] at made
  obtain ⟨basis, -, made⟩ := made
  cases made
  refine ⟨orderly, rfl, rfl, fun _ => rfl, ?_, Nat.zero_le _⟩
  intro snapshot gate
  simp only [start] at gate
  split at gate
  · rename_i pending loaded
    cases gate
    exact Host.valid_of_loadInitial loaded
  · cases gate

/-- Whatever happens, it stays true. -/
theorem Course.kept (made : Local.ofConfig? config id directory keyboardOpen = .ok origin)
    (manual : origin.config.policy.isManual = true) (course : Course origin entries host) :
    Kept origin entries host := by
  induction course with
  | nil => exact .ofConfig? made
  | cons earlier stepped kept => exact kept.step (kept.config_eq ▸ manual) stepped

end Ferry.Local
