import Ferry.Proofs.Controller

/-!
# The course of a controller

Invocations begin and end under a controller that holds one guard at a time, and in between requests
come in and are taken and time passes. The guard that is held belongs to the invocation that began
last, its timer has gone off exactly if its time has come, and no timer goes off twice.
-/

namespace Ferry.Controller

/-- What can happen to a controller. -/
inductive Action where
  /-- An invocation begins. -/
  | beginRun
  /-- The guard of the invocation is dropped. -/
  | drop
  /-- The operator asks for a pause. -/
  | request
  /-- The engine takes the request. -/
  | take
  /-- Time passes. -/
  | advance (milliseconds : Nat)
  deriving DecidableEq

/-- Why a signal is armed. -/
inductive Cause where
  /-- The operator asks for a pause. -/
  | request
  /-- The invocation of a guard pauses at every instruction. -/
  | stepping (guard : Nat)
  /-- The timer of a guard goes off. -/
  | timer (guard : Nat)
  deriving DecidableEq

/-- The guard whose invocation is to pause. -/
def Cause.guard? : Cause → Option Nat
  | request => none
  | stepping guard | timer guard => some guard

/-- The guards whose timers are due. -/
def due (controller : Controller) : List Nat :=
  (controller.guards.filter (·.isDue controller.now)).map Guard.index

/-- A controller with the guard of a new invocation, before its timer can go off. -/
def prepared (controller : Controller) : Controller :=
  { controller with
    signal := controller.signal.armIf (controller.policy = .stepAll)
    begun := controller.begun + 1
    guards := ⟨controller.begun, controller.deadline⟩ :: controller.guards }

/-- A controller to which time has passed, before any timer can go off. -/
def passed (controller : Controller) (milliseconds : Nat) : Controller :=
  { controller with now := controller.now + milliseconds }

/-- What happens to a controller while it holds one guard at a time. -/
inductive Step : Controller → Action → Controller → Prop where
  | begins {controller : Controller} (idle : controller.guards = []) :
      Step controller .beginRun controller.beginRun.2
  | drops {controller : Controller} {guard : Guard} (held : controller.guards = [guard]) :
      Step controller .drop (controller.drop guard.index).2
  | requests {controller : Controller} : Step controller .request controller.request
  | takes {controller : Controller} : Step controller .take controller.take.2
  | advances {controller : Controller} (milliseconds : Nat) :
      Step controller (.advance milliseconds) (controller.advance milliseconds)

/-- An action in the course of a controller. -/
structure Entry where
  before : Controller
  action : Action
  after : Controller

namespace Entry

/-- The guards whose timers go off. -/
def rings (entry : Entry) : List Nat :=
  match entry.action with
  | .beginRun => entry.before.prepared.due
  | .advance milliseconds => (entry.before.passed milliseconds).due
  | .drop | .request | .take => []

/-- All that arms the signal. -/
def causes (entry : Entry) : List Cause :=
  (match entry.action with
    | .beginRun => if entry.before.policy = .stepAll then [.stepping entry.before.begun] else []
    | .request => [.request]
    | .drop | .take | .advance _ => []) ++ entry.rings.map .timer

/-- What an action settles about the signal: that it is armed, or that it is clear. -/
def effect? (entry : Entry) : Option Bool :=
  match entry.action with
  | .drop | .take => some false
  | .beginRun | .request | .advance _ => if entry.causes = [] then none else some true

end Entry

/-- The course of a controller: what happened to it, newest first, and what it is then. -/
inductive Course (origin : Controller) : List Entry → Controller → Prop where
  | nil : Course origin [] origin
  | cons {entries : List Entry} {before after : Controller} {action : Action}
      (earlier : Course origin entries before) (step : Step before action after) :
      Course origin (⟨before, action, after⟩ :: entries) after

/-- An invocation is the last that began, and its guard has not been dropped. The entries are given
newest first. -/
def Live (entries : List Entry) (began : Entry) : Prop :=
  ∃ since older, entries = since ++ began :: older ∧ began.action = .beginRun ∧
    ∀ entry ∈ since, entry.action ≠ .drop ∧ entry.action ≠ .beginRun

variable {origin controller before after final : Controller} {action : Action}
  {entry began : Entry} {entries earlier newer older : List Entry} {guard : Guard}

theorem beginRun_eq (controller : Controller) :
    controller.beginRun = (controller.begun, controller.prepared.ring) := rfl

theorem advance_eq (controller : Controller) (milliseconds : Nat) :
    controller.advance milliseconds = (controller.passed milliseconds).ring := rfl

theorem due_eq_nil_iff :
    controller.due = [] ↔ controller.guards.any (·.isDue controller.now) = false := by
  simp [due]

theorem armed_ring_eq :
    controller.ring.signal.armed = (controller.signal.armed || !controller.due.isEmpty) := by
  change (_ || _) = _
  rw [← Bool.not_not (controller.guards.any _)]
  congr 2
  rw [Bool.eq_iff_iff, Bool.not_eq_true', List.isEmpty_iff, due_eq_nil_iff]

theorem due_of_single (held : controller.guards = [guard]) :
    controller.due = if guard.isDue controller.now then [guard.index] else [] := by
  rw [due, held, List.filter_cons, List.filter_nil]
  cases guard.isDue controller.now <;> rfl

/-- After the timers that are due have gone off, those to come are left. -/
theorem ring_of_single (held : controller.guards = [guard]) :
    controller.ring.guards =
      [{ guard with deadline := guard.deadline.filter (controller.now < ·) }] := by
  simp only [ring, held, List.map_cons, List.map_nil, Guard.isDue]
  rcases guard with ⟨index, _ | deadline⟩
  · rfl
  · by_cases come : deadline ≤ controller.now
    · simp [come, Option.filter]
    · simp [come, Nat.not_le.mp come, Option.filter]

theorem Step.policy_eq (step : Step before action after) : after.policy = before.policy := by
  cases step with
  | begins => rfl
  | drops => exact policy_drop _ _
  | requests | takes | advances => rfl

/-- A cause arms the signal, a drop or a take clears it, and nothing else concerns it. -/
theorem Step.armed_eq (step : Step before action after) :
    after.signal.armed = (Entry.effect? ⟨before, action, after⟩).getD before.signal.armed := by
  cases step with
  | begins idle =>
      simp only [beginRun_eq, armed_ring_eq]
      change ((before.signal.armed || before.policy = .stepAll) || _) = _
      simp only [Entry.effect?, Entry.causes, Entry.rings]
      by_cases stepping : before.policy = .stepAll <;> cases before.prepared.due <;>
        simp [stepping]
  | @drops guard held =>
      rw [drop, if_pos (by simp [holds, held])]
      rfl
  | requests => rfl
  | takes => rfl
  | advances milliseconds =>
      rw [advance_eq, armed_ring_eq]
      simp only [Entry.effect?, Entry.causes, Entry.rings]
      change (before.signal.armed || _) = _
      by_cases none : (before.passed milliseconds).due = [] <;> simp [none]

/-- The last effect in a course tells whether the signal is armed. -/
theorem Course.armed_eq (course : Course origin entries final) :
    final.signal.armed = (entries.findSome? Entry.effect?).getD origin.signal.armed := by
  induction course with
  | nil => rfl
  | @cons entries before after action earlier step ih =>
      rw [step.armed_eq, List.findSome?_cons]
      cases Entry.effect? ⟨before, action, after⟩ with
      | none => exact ih
      | some settled => rfl

theorem Course.policy_eq (course : Course origin entries final) :
    final.policy = origin.policy := by
  induction course with
  | nil => rfl
  | cons earlier step ih => exact step.policy_eq.trans ih

theorem course_append_iff :
    Course origin (newer ++ earlier) final ↔
      ∃ between, Course origin earlier between ∧ Course between newer final := by
  induction newer generalizing final with
  | nil =>
      constructor
      · exact fun course => ⟨final, course, .nil⟩
      · rintro ⟨between, course, rest⟩
        cases rest
        exact course
  | cons entry newer ih =>
      constructor
      · intro course
        cases course with
        | cons course step =>
            obtain ⟨between, past, rest⟩ := ih.mp course
            exact ⟨between, past, .cons rest step⟩
      · rintro ⟨between, past, rest⟩
        cases rest with
        | cons rest step => exact .cons (ih.mpr ⟨between, past, rest⟩) step

/-- What stands in the middle of a course is a step between two courses. -/
theorem Course.split (course : Course origin (newer ++ entry :: earlier) final) :
    Course origin earlier entry.before ∧ Step entry.before entry.action entry.after ∧
      Course entry.after newer final := by
  obtain ⟨between, past, rest⟩ := course_append_iff.mp course
  cases past with
  | cons past step => exact ⟨past, step, rest⟩

theorem Step.begun_le (step : Step before action after) : before.begun ≤ after.begun := by
  cases step with
  | begins => exact Nat.le_succ _
  | drops => exact Nat.le_of_eq (begun_drop _ _).symm
  | requests | takes | advances => exact Nat.le_refl _

theorem Course.begun_le (course : Course origin entries final) : origin.begun ≤ final.begun := by
  induction course with
  | nil => exact Nat.le_refl _
  | cons earlier step ih => exact Nat.le_trans ih step.begun_le

/-- What is known of the guard that is held: whose invocation it belongs to, and that its timer has gone
off exactly if its time has come. -/
structure Held (policy : Policy) (entries : List Entry) (final : Controller) (began : Entry)
    (guard : Guard) : Prop where
  alone : final.guards = [guard]
  live : Live entries began
  policy_eq : began.before.policy = policy
  index_eq : guard.index = began.before.begun
  index_lt : guard.index < final.begun
  deadline_eq : guard.deadline = began.before.deadline.filter (final.now < ·)
  rung_iff : guard.index ∈ entries.flatMap Entry.rings ↔
    ∃ time, began.before.deadline = some time ∧ time ≤ final.now

/-- What holds in the course of a controller: no timer goes off twice, and at most one guard is held. -/
structure Orderly (policy : Policy) (entries : List Entry) (final : Controller) : Prop where
  policy_eq : final.policy = policy
  once : (entries.flatMap Entry.rings).Nodup
  rung_lt : ∀ index ∈ entries.flatMap Entry.rings, index < final.begun
  single : final.guards = [] ∨ ∃ began guard, Held policy entries final began guard

variable {policy : Policy}

theorem Orderly.held_of_mem (orderly : Orderly policy entries final)
    (member : guard ∈ final.guards) : ∃ began, Held policy entries final began guard := by
  rcases orderly.single with none | ⟨began, other, held⟩
  · rw [none] at member
    cases member
  · rw [held.alone] at member
    obtain rfl := List.mem_singleton.mp member
    exact ⟨began, held⟩

theorem Live.cons (live : Live entries began) (continues : entry.action ≠ .drop)
    (no_other : entry.action ≠ .beginRun) : Live (entry :: entries) began := by
  obtain ⟨since, older, rfl, begins, continued⟩ := live
  refine ⟨entry :: since, older, rfl, begins, ?_⟩
  exact List.forall_mem_cons.mpr ⟨⟨continues, no_other⟩, continued⟩

theorem isDue_iff {time : Nat} :
    guard.isDue time = true ↔ ∃ deadline, guard.deadline = some deadline ∧ deadline ≤ time := by
  simp [Guard.isDue, Option.any_eq_true]

/-- A deadline that is to come is left as long as time has not reached it. -/
theorem filter_later (deadline : Option Nat) (now milliseconds : Nat) :
    (deadline.filter (now < ·)).filter (now + milliseconds < ·) =
      deadline.filter (now + milliseconds < ·) := by
  rw [Option.filter_filter]
  congr 1
  funext time
  rw [← Bool.decide_and, decide_eq_decide]
  omega

/-- A deadline has come if it comes now or had come before. -/
theorem come_iff {deadline : Option Nat} {now milliseconds : Nat} :
    (∃ time, deadline = some time ∧ time ≤ now + milliseconds) ↔
      (∃ time, deadline = some time ∧ now < time ∧ time ≤ now + milliseconds) ∨
        ∃ time, deadline = some time ∧ time ≤ now := by
  constructor
  · rintro ⟨time, sets, come⟩
    rcases Nat.lt_or_ge now time with later | sooner
    · exact .inl ⟨time, sets, later, come⟩
    · exact .inr ⟨time, sets, sooner⟩
  · rintro (⟨time, sets, -, come⟩ | ⟨time, sets, come⟩)
    · exact ⟨time, sets, come⟩
    · exact ⟨time, sets, Nat.le_add_right_of_le come⟩

/-- A timer is due once, when the clock reaches its deadline. -/
theorem Held.isDue_iff (held : Held policy entries before began guard) (milliseconds : Nat) :
    guard.isDue (before.now + milliseconds) = true ↔
      ∃ time, began.before.deadline = some time ∧ before.now < time ∧
        time ≤ before.now + milliseconds := by
  rw [Controller.isDue_iff, held.deadline_eq]
  simp [Option.filter_eq_some_iff, and_assoc]

/-- What a request or a take leaves as it was. -/
theorem Orderly.untimed (orderly : Orderly policy entries before) (silent : entry.rings = [])
    (continues : entry.action ≠ .drop) (no_other : entry.action ≠ .beginRun)
    (signal : Signal) : Orderly policy (entry :: entries) { before with signal } := by
  obtain ⟨policy_eq, once, rung_lt, single⟩ := orderly
  have rings_eq : (entry :: entries).flatMap Entry.rings = entries.flatMap Entry.rings := by
    rw [List.flatMap_cons, silent, List.nil_append]
  refine ⟨policy_eq, rings_eq ▸ once, rings_eq ▸ rung_lt, single.imp_right ?_⟩
  rintro ⟨began, guard, held⟩
  exact ⟨began, guard, held.alone, held.live.cons continues no_other, held.policy_eq, held.index_eq,
    held.index_lt, held.deadline_eq, rings_eq ▸ held.rung_iff⟩

/-- A timer that goes off has not gone off before. -/
theorem nodup_ringing {rung : List Nat} {time : Nat} (once : rung.Nodup)
    (fresh : guard.isDue time = true → guard.index ∉ rung) :
    ((if guard.isDue time then [guard.index] else []) ++ rung).Nodup := by
  split
  · rename_i due
    exact List.nodup_cons.mpr ⟨fresh due, once⟩
  · exact once

theorem mem_ringing_iff {rung : List Nat} {time index : Nat} :
    index ∈ (if guard.isDue time then [guard.index] else []) ++ rung ↔
      (guard.isDue time = true ∧ index = guard.index) ∨ index ∈ rung := by
  split <;> simp_all

theorem Orderly.begins (orderly : Orderly policy entries before) (idle : before.guards = []) :
    Orderly policy (⟨before, .beginRun, before.beginRun.2⟩ :: entries) before.beginRun.2 := by
  obtain ⟨policy_eq, once, rung_lt, -⟩ := orderly
  have held : before.prepared.guards = [⟨before.begun, before.deadline⟩] := by
    rw [prepared, idle]
  have fresh : before.begun ∉ entries.flatMap Entry.rings := fun rung =>
    Nat.lt_irrefl _ (rung_lt _ rung)
  have rings_eq : Entry.rings ⟨before, .beginRun, before.beginRun.2⟩ = _ := due_of_single held
  refine ⟨policy_eq, ?_, ?_, .inr ⟨⟨before, .beginRun, before.beginRun.2⟩, _,
    ring_of_single held, ⟨[], entries, rfl, rfl, nofun⟩, policy_eq, rfl, Nat.lt_succ_self _, rfl, ?_⟩⟩
  · rw [List.flatMap_cons, rings_eq]
    exact nodup_ringing once fun _ => fresh
  · rw [List.flatMap_cons, rings_eq]
    intro index rung
    rcases mem_ringing_iff.mp rung with ⟨-, rfl⟩ | rung
    · exact Nat.lt_succ_self _
    · exact Nat.lt_succ_of_lt (rung_lt index rung)
  · rw [List.flatMap_cons, rings_eq, mem_ringing_iff, isDue_iff]
    simp only [fresh, or_false, and_true]
    rfl

theorem Orderly.advances (orderly : Orderly policy entries before) (milliseconds : Nat) :
    Orderly policy (⟨before, .advance milliseconds, before.advance milliseconds⟩ :: entries)
      (before.advance milliseconds) := by
  obtain ⟨policy_eq, once, rung_lt, single⟩ := orderly
  rcases single with idle | ⟨began, guard, held⟩
  · have rings_eq :
        Entry.rings ⟨before, .advance milliseconds, before.advance milliseconds⟩ = [] := by
      simp [Entry.rings, due, passed, idle]
    have idle_after : (before.advance milliseconds).guards = [] := by
      simp [advance, ring, idle]
    refine ⟨policy_eq, ?_, ?_, .inl idle_after⟩
    all_goals rw [List.flatMap_cons, rings_eq, List.nil_append]
    · exact once
    · exact rung_lt
  · have alone : (before.passed milliseconds).guards = [guard] := held.alone
    have rings_eq : Entry.rings ⟨before, .advance milliseconds, before.advance milliseconds⟩ = _ :=
      due_of_single alone
    refine ⟨policy_eq, ?_, ?_, .inr ⟨began, _, ring_of_single alone,
      held.live.cons Action.noConfusion Action.noConfusion, held.policy_eq, held.index_eq,
      held.index_lt, ?_, ?_⟩⟩
    · rw [List.flatMap_cons, rings_eq]
      refine nodup_ringing once fun due => ?_
      obtain ⟨time, sets, later, -⟩ := (held.isDue_iff milliseconds).mp due
      rw [held.rung_iff]
      rintro ⟨_, same, come⟩
      cases sets.symm.trans same
      exact Nat.not_lt.mpr come later
    · rw [List.flatMap_cons, rings_eq]
      intro index rung
      rcases mem_ringing_iff.mp rung with ⟨-, rfl⟩ | rung
      · exact held.index_lt
      · exact rung_lt index rung
    · change guard.deadline.filter _ = _
      rw [held.deadline_eq]
      exact filter_later _ _ _
    · rw [List.flatMap_cons, rings_eq, mem_ringing_iff, held.rung_iff, and_iff_left rfl]
      exact (or_congr_left (held.isDue_iff milliseconds)).trans come_iff.symm

theorem Orderly.step (orderly : Orderly policy entries before) (step : Step before action after) :
    Orderly policy (⟨before, action, after⟩ :: entries) after := by
  cases step with
  | begins idle => exact orderly.begins idle
  | @drops guard held =>
      have holds : before.holds guard.index = true := by simp [Controller.holds, held]
      have dropped : before.drop guard.index =
          (true, { before with signal := before.signal.disarm, guards := [] }) := by
        rw [drop, if_pos holds, held]
        simp
      rw [dropped]
      exact ⟨orderly.policy_eq, orderly.once, orderly.rung_lt, .inl rfl⟩
  | requests => refine orderly.untimed rfl ?_ ?_ _ <;> exact Action.noConfusion
  | takes => refine orderly.untimed rfl ?_ ?_ _ <;> exact Action.noConfusion
  | advances milliseconds => exact orderly.advances milliseconds

/-- The course of a controller that holds no guard at first is orderly. -/
theorem Course.orderly (course : Course origin entries final) (idle : origin.guards = []) :
    Orderly origin.policy entries final := by
  induction course with
  | nil => exact ⟨rfl, List.nodup_nil, nofun, .inl idle⟩
  | cons earlier step ih => exact ih.step step

end Ferry.Controller
