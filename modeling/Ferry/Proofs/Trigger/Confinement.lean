import Ferry.Host.Basic
import Ferry.Proofs.Local.Progress
import Ferry.Proofs.Trigger.Course

/-!
# Requests are confined to their invocation

A policy arms the signal only for the invocation whose guard is held, so a signal that was cleared with
a guard stays clear until the operator asks or a later invocation is to pause. A timer goes off once,
when its time has come; no timer waits for more than thirty years, so one that is set to more goes off
early. One run of an engine under a guard ends with a clear signal, however it ends.
-/

namespace Ferry

namespace Controller

variable {origin controller before after final : Controller} {action : Action}
  {entry began dropped : Entry} {entries earlier since older : List Entry} {index : Nat}

theorem deadline_eq_some_iff {time : Nat} :
    controller.deadline = some time ↔ ∃ milliseconds,
      controller.policy = .timeout milliseconds ∧
        controller.now + min milliseconds longestWait = time := by
  rw [deadline]
  split
  · rename_i milliseconds policy_eq
    simp [policy_eq]
  · rename_i other
    refine iff_of_false nofun ?_
    rintro ⟨milliseconds, same, -⟩
    exact other milliseconds same

theorem timer_mem_causes_iff : .timer index ∈ entry.causes ↔ index ∈ entry.rings := by
  rcases entry with ⟨before, action, after⟩
  cases action with
  | beginRun =>
      rw [Entry.causes]
      by_cases stepping : before.policy = .stepAll <;> simp [stepping]
  | _ => simp [Entry.causes]

theorem stepping_mem_causes_iff :
    .stepping index ∈ entry.causes ↔
      entry.action = .beginRun ∧ entry.before.policy = .stepAll ∧ index = entry.before.begun := by
  rcases entry with ⟨before, action, after⟩
  cases action with
  | beginRun =>
      rw [Entry.causes]
      by_cases stepping : before.policy = .stepAll <;> simp [stepping]
  | _ => simp [Entry.causes]

/-- The timers that go off take no guard away. -/
theorem exists_of_mem_guards {guard : Guard} (member : guard ∈ controller.guards) :
    ∃ kept ∈ controller.ring.guards, kept.index = guard.index := by
  refine ⟨_, List.mem_map.mpr ⟨guard, member, rfl⟩, ?_⟩
  split <;> rfl

theorem exists_of_mem_due (due : index ∈ controller.due) :
    ∃ guard ∈ controller.ring.guards, guard.index = index := by
  obtain ⟨guard, within, rfl⟩ := List.mem_map.mp due
  exact exists_of_mem_guards (List.mem_filter.mp within).1

/-- What arms the signal for an invocation does so while its guard is held. -/
theorem Step.exists_guard {cause : Cause} (step : Step before action after)
    (arms : cause ∈ Entry.causes ⟨before, action, after⟩) (owned : cause.guard? = some index) :
    ∃ guard ∈ after.guards, guard.index = index := by
  cases cause with
  | request => cases owned
  | stepping number =>
      cases owned
      obtain ⟨begins, -, rfl⟩ := stepping_mem_causes_iff.mp arms
      cases begins
      cases step with
      | begins idle => exact @exists_of_mem_guards before.prepared _ List.mem_cons_self
  | timer number =>
      cases owned
      have rung := timer_mem_causes_iff.mp arms
      cases step with
      | begins idle => exact exists_of_mem_due rung
      | advances milliseconds => exact exists_of_mem_due rung
      | drops | requests | takes => cases rung

/-- What arms the signal for an invocation does so before the guard of the invocation is dropped. -/
theorem Course.held_of_cause {cause : Cause} (idle : origin.guards = [])
    (course : Course origin (entry :: earlier) final) (arms : cause ∈ entry.causes)
    (owned : cause.guard? = some index) :
    ∃ began guard, Held origin.policy (entry :: earlier) final began guard ∧ guard.index = index := by
  have orderly := course.orderly idle
  cases course with
  | cons course step =>
      obtain ⟨guard, member, same⟩ := step.exists_guard arms owned
      obtain ⟨began, held⟩ := orderly.held_of_mem member
      exact ⟨began, guard, held, same⟩

/-- The invocation whose guard is held began after all drops. -/
theorem Live.after_drop (live : Live (since ++ dropped :: older) began)
    (drops : dropped.action = .drop) : ∃ newer between, since = newer ++ began :: between := by
  obtain ⟨newer, rest, whole, begins, continued⟩ := live
  have differs : dropped ≠ began := by
    rintro rfl
    rw [begins] at drops
    cases drops
  rcases List.append_eq_append_iff.mp whole with ⟨between, rfl, tail⟩ | ⟨between, rfl, tail⟩
  · -- The drop would come after the beginning.
    cases between with
    | nil => exact absurd (List.cons.inj tail).1 differs
    | cons other between =>
        obtain ⟨rfl, -⟩ := List.cons.inj tail
        exact absurd drops (continued _ (List.mem_append_right _ List.mem_cons_self)).1
  · cases between with
    | nil => exact absurd (List.cons.inj tail).1.symm differs
    | cons other between =>
        obtain ⟨rfl, -⟩ := List.cons.inj tail
        exact ⟨newer, between, rfl⟩

theorem exists_cause (armed : entry.effect? = some true) : ∃ cause, cause ∈ entry.causes := by
  refine List.exists_mem_of_ne_nil _ fun none => ?_
  rw [Entry.effect?] at armed
  split at armed <;> simp [none] at armed

/-- What arms the signal after a drop is a request, or an invocation that began since is to pause. -/
theorem Course.cause_since_drop {arming : Entry} {between : List Entry} {cause : Cause}
    (idle : origin.guards = [])
    (course : Course origin (arming :: (between ++ dropped :: older)) final)
    (drops : dropped.action = .drop) (arms : cause ∈ arming.causes) :
    cause = .request ∨ ∃ began ∈ arming :: between,
      began.action = .beginRun ∧ cause.guard? = some began.before.begun := by
  cases owned : cause.guard? with
  | none =>
      cases cause with
      | request => exact .inl rfl
      | stepping | timer => cases owned
  | some index =>
      obtain ⟨began, guard, held, rfl⟩ := course.held_of_cause idle arms owned
      obtain ⟨-, -, -, begins, -⟩ := held.live
      have live : Live ((arming :: between) ++ dropped :: older) began := held.live
      obtain ⟨newer, rest, within⟩ := live.after_drop drops
      have member : began ∈ newer ++ began :: rest := List.mem_append_right _ List.mem_cons_self
      exact .inr ⟨began, within ▸ member, begins, by rw [held.index_eq]⟩

/-- From a drop on, the signal is armed only if the operator has asked or an invocation that began since
is to pause. -/
theorem Course.confined (idle : origin.guards = [])
    (course : Course origin (since ++ dropped :: older) final) (drops : dropped.action = .drop)
    (armed : final.signal.armed = true) :
    ∃ arming ∈ since, ∃ cause ∈ arming.causes, cause = .request ∨
      ∃ began ∈ since, began.action = .beginRun ∧ cause.guard? = some began.before.begun := by
  have cleared : dropped.effect? = some false := by
    rw [Entry.effect?, drops]
  rw [course.armed_eq, List.findSome?_append, List.findSome?_cons, cleared] at armed
  cases latest : since.findSome? Entry.effect? with
  | none =>
      rw [latest] at armed
      cases armed
  | some settled =>
      rw [latest] at armed
      cases armed
      obtain ⟨newer, arming, between, rfl, effect, -⟩ := List.findSome?_eq_some_iff.mp latest
      obtain ⟨cause, arms⟩ := exists_cause effect
      rw [List.append_assoc, List.cons_append] at course
      obtain ⟨past, step, -⟩ := course.split
      have owned := cause_since_drop idle (.cons past step) drops arms
      refine ⟨arming, List.mem_append_right _ List.mem_cons_self, cause, arms, owned.imp_right ?_⟩
      rintro ⟨began, member, owns⟩
      exact ⟨began, List.mem_append_right _ member, owns⟩

/-- What holds of an action in the course of a controller. Older entries are given newest first. -/
structure Confined (origin : Controller) (earlier : List Entry) (entry : Entry) : Prop where
  /-- The signal is as the last action left it that armed or cleared it. -/
  latest : entry.after.signal.armed =
    ((entry :: earlier).findSome? Entry.effect?).getD origin.signal.armed
  /-- With a guard the signal is cleared. -/
  cleared : entry.action = .drop → entry.after.signal.armed = false
  /-- From then on it is armed only if the operator asks or for an invocation that began since. -/
  confined : ∀ since dropped older, entry :: earlier = since ++ dropped :: older →
    dropped.action = .drop → entry.after.signal.armed = true →
    ∃ arming ∈ since, ∃ cause ∈ arming.causes, cause = .request ∨
      ∃ began ∈ since, began.action = .beginRun ∧ cause.guard? = some began.before.begun
  /-- A timer goes off while its guard is held, and when its time has come. -/
  timers : ∀ index ∈ entry.rings, ∃ began milliseconds,
    Live (entry :: earlier) began ∧ began.before.begun = index ∧
      origin.policy = .timeout milliseconds ∧
      began.before.now + min milliseconds longestWait ≤ entry.after.now ∧
      (milliseconds ≤ longestWait → began.before.now + milliseconds ≤ entry.after.now)
  /-- No timer goes off twice. -/
  once : ((entry :: earlier).flatMap Entry.rings).Nodup
  /-- After a guard was dropped its timer does not go off. -/
  stopped : ∀ since dropped older, entry :: earlier = since ++ dropped :: older →
    dropped.action = .drop → ∀ guard ∈ dropped.before.guards, guard.index ∉ entry.rings
  /-- While a guard is held its timer has gone off exactly if its time has come. -/
  punctual : ∀ guard ∈ entry.after.guards, ∀ milliseconds, origin.policy = .timeout milliseconds →
    ∃ began, Live (entry :: earlier) began ∧ began.before.begun = guard.index ∧
      (guard.index ∈ (entry :: earlier).flatMap Entry.rings ↔
        began.before.now + min milliseconds longestWait ≤ entry.after.now)
  /-- An invocation that is to pause at every instruction begins with an armed signal. -/
  stepping : origin.policy = .stepAll → entry.action = .beginRun →
    entry.after.signal.armed = true
  /-- Where only the operator asks, nothing else arms the signal. -/
  asked : origin.policy = .never ∨ origin.policy = .manual →
    ∀ cause ∈ entry.causes, cause = .request

theorem Course.timers (idle : origin.guards = [])
    (course : Course origin (entry :: earlier) final) (rung : index ∈ entry.rings) :
    ∃ began milliseconds, Live (entry :: earlier) began ∧ began.before.begun = index ∧
      origin.policy = .timeout milliseconds ∧
      began.before.now + min milliseconds longestWait ≤ final.now := by
  obtain ⟨began, guard, held, rfl⟩ :=
    course.held_of_cause idle (timer_mem_causes_iff.mpr rung) rfl
  have rung_here : guard.index ∈ (entry :: earlier).flatMap Entry.rings :=
    List.mem_append_left _ rung
  obtain ⟨time, sets, come⟩ := held.rung_iff.mp rung_here
  obtain ⟨milliseconds, policy_eq, rfl⟩ := deadline_eq_some_iff.mp sets
  rw [held.policy_eq] at policy_eq
  exact ⟨began, milliseconds, held.live, held.index_eq.symm, policy_eq, come⟩

theorem Course.stopped {guard : Guard} (idle : origin.guards = [])
    (course : Course origin (entry :: earlier) final)
    (whole : entry :: earlier = since ++ dropped :: older) (drops : dropped.action = .drop)
    (member : guard ∈ dropped.before.guards) : guard.index ∉ entry.rings := by
  intro rung
  obtain ⟨began, -, live, same, -⟩ := course.timers idle rung
  rw [whole] at course live
  obtain ⟨newer, between, rfl⟩ := live.after_drop drops
  rw [List.append_assoc, List.cons_append] at course
  obtain ⟨past, -, -⟩ := course.split
  obtain ⟨before_drop, step, since_drop⟩ := past.split
  -- The invocation that began since has a number that no guard had before the drop.
  obtain ⟨_, held⟩ := (before_drop.orderly idle).held_of_mem member
  have later := Nat.le_trans step.begun_le since_drop.begun_le
  exact Nat.not_lt.mpr later (same ▸ held.index_lt)

theorem Course.punctual {guard : Guard} {milliseconds : Nat} (idle : origin.guards = [])
    (course : Course origin entries final) (member : guard ∈ final.guards)
    (waits : origin.policy = .timeout milliseconds) :
    ∃ began, Live entries began ∧ began.before.begun = guard.index ∧
      (guard.index ∈ entries.flatMap Entry.rings ↔
        began.before.now + min milliseconds longestWait ≤ final.now) := by
  obtain ⟨began, held⟩ := (course.orderly idle).held_of_mem member
  refine ⟨began, held.live, held.index_eq.symm, held.rung_iff.trans ?_⟩
  have sets : began.before.deadline = some (began.before.now + min milliseconds longestWait) :=
    deadline_eq_some_iff.mpr ⟨milliseconds, held.policy_eq.trans waits, rfl⟩
  simp [sets]

theorem Course.asked {cause : Cause} (idle : origin.guards = [])
    (course : Course origin (entry :: earlier) final)
    (silent : origin.policy = .never ∨ origin.policy = .manual) (arms : cause ∈ entry.causes) :
    cause = .request := by
  cases cause with
  | request => rfl
  | stepping index =>
      cases course with
      | cons past step =>
          have steps := past.policy_eq.symm.trans (stepping_mem_causes_iff.mp arms).2.1
          simp [steps] at silent
  | timer index =>
      obtain ⟨_, _, -, -, waits, -⟩ := course.timers idle (timer_mem_causes_iff.mp arms)
      simp [waits] at silent

theorem Course.stepping (course : Course origin (entry :: earlier) final)
    (steps : origin.policy = .stepAll) (begins : entry.action = .beginRun) :
    final.signal.armed = true := by
  cases course with
  | cons past step =>
      cases begins
      cases step with
      | begins idle => exact armed_beginRun (past.policy_eq.trans steps)

/-- Whatever happens to a controller that held no guard at first is confined. -/
theorem Course.confined_last (idle : origin.guards = [])
    (course : Course origin (entry :: earlier) entry.after) : Confined origin earlier entry := by
  constructor
  case latest => exact course.armed_eq
  case cleared =>
    intro drops
    rw [course.armed_eq, List.findSome?_cons, Entry.effect?, drops]
    rfl
  case confined =>
    intro since dropped older whole drops armed
    rw [whole] at course
    exact course.confined idle drops armed
  case timers =>
    intro index rung
    obtain ⟨began, milliseconds, live, same, waits, come⟩ := course.timers idle rung
    refine ⟨began, milliseconds, live, same, waits, come, fun short => ?_⟩
    rwa [Nat.min_eq_left short] at come
  case once => exact (course.orderly idle).once
  case stopped =>
    intro since dropped older whole drops guard member
    exact course.stopped idle whole drops member
  case punctual =>
    intro guard member milliseconds waits
    exact course.punctual idle member waits
  case stepping => exact course.stepping
  case asked => exact fun silent cause arms => course.asked idle silent arms

theorem exists_course_armIf (controller : Controller) (asks : Bool) :
    ∃ entries, Course controller entries
      { controller with signal := controller.signal.armIf asks } := by
  cases asks with
  | false =>
      have same : controller.signal.armIf false = controller.signal := by simp [Signal.armIf]
      rw [same]
      exact ⟨[], .nil⟩
  | true =>
      have same : controller.signal.armIf true = controller.signal.arm := by
        simp [Signal.armIf, Signal.arm]
      rw [same]
      exact ⟨_, .cons .nil .requests⟩

/-- What a run of an engine does to the signal is the course of a controller: the operator asks at some
boundaries, and a pause takes the request. -/
theorem course_of_run {engine : Engine} {arms : Nat → Bool} {fuel boundary : Nat}
    {invocation : Invocation} {outcome : Outcome Fault} {signal : Signal}
    (ended : engine.run arms fuel boundary controller.signal invocation = some (outcome, signal)) :
    ∃ entries, Course controller entries { controller with signal } := by
  induction fuel generalizing boundary controller invocation with
  | zero => cases ended
  | succ fuel ih =>
      obtain ⟨asked, course⟩ := exists_course_armIf controller (arms boundary)
      rw [Engine.run, Engine.turn] at ended
      split at ended
      · rename_i next signal turned
        split at turned
        · cases turned
        · obtain ⟨-, rfl⟩ := Prod.mk.inj turned
          obtain ⟨entries, rest⟩ :=
            @ih { controller with signal := controller.signal.armIf (arms boundary) } (boundary + 1)
              next ended
          exact ⟨entries ++ asked, course_append_iff.mpr ⟨_, course, rest⟩⟩
      · rename_i last left turned
        cases ended
        split at turned
        · cases turned
          exact ⟨_, .cons course .takes⟩
        · obtain ⟨-, rfl⟩ := Prod.mk.inj turned
          exact ⟨asked, course⟩

/-- So is what an invocation does that may be refused before its first instruction. -/
theorem course_of_play {engine : Engine} {arms : Nat → Bool} {fuel : Nat}
    {begun : Except Fault Invocation} {outcome : Outcome Fault} {signal : Signal}
    (ended : engine.play arms fuel controller.signal begun = some (outcome, signal)) :
    ∃ entries, Course controller entries { controller with signal } := by
  cases begun with
  | error fault =>
      cases ended
      exact ⟨[], .nil⟩
  | ok invocation => exact course_of_run ended

end Controller

open Controller

variable {host after : Host} {arms : Nat → Bool} {fuel : Nat} {snapshot : Option Snapshot}
  {outcome : Outcome Fault}

theorem Host.executeOnce_eq (host : Host) (arms : Nat → Bool) (fuel : Nat)
    (snapshot : Option Snapshot) :
    host.executeOnce arms fuel snapshot =
      (host.config.engine.play arms fuel host.controller.beginRun.2.signal
        (invoke host.config snapshot)).map fun (outcome, signal) =>
          (outcome, { host with
            controller := ({ host.controller.beginRun.2 with signal }.drop host.controller.begun).2 }) := by
  rw [executeOnce]
  cases played : host.config.engine.play arms fuel host.controller.beginRun.2.signal
      (invoke host.config snapshot) with
  | none =>
      simp only [beginRun] at played ⊢
      rw [played]
      rfl
  | some result =>
      simp only [beginRun] at played ⊢
      rw [played]
      rfl

/-- One invocation under the trigger policy is a course that ends with the drop of its guard. -/
theorem Host.course_of_executeOnce (idle : host.controller.guards = [])
    (ended : host.executeOnce arms fuel snapshot = some (outcome, after)) :
    ∃ before earlier, Course host.controller
      (⟨before, .drop, after.controller⟩ :: earlier) after.controller := by
  rw [executeOnce_eq, Option.map_eq_some_iff] at ended
  obtain ⟨⟨result, signal⟩, played, same⟩ := ended
  cases same
  obtain ⟨entries, course⟩ := course_of_play played
  have held : host.controller.beginRun.2.guards = _ :=
    @ring_of_single host.controller.prepared _ (by rw [prepared, idle])
  have whole := course_append_iff.mpr ⟨_, .cons .nil (.begins idle), course⟩
  exact ⟨_, _, .cons whole (@Step.drops { host.controller.beginRun.2 with signal } _ held)⟩

namespace Controller

/-- Whatever happens to a controller that holds one guard at a time is confined to the invocations, and
an invocation of a host ends with a clear signal, however it ends; it ends at once if it is refused
before its first instruction. A timer waits no longer than thirty years: one that is set to so much or
less never goes off early. -/
theorem arms_confined {origin : Controller} (idle : origin.guards = []) :
    (∀ entry earlier, Course origin (entry :: earlier) entry.after →
      Confined origin earlier entry) ∧
    ∀ (host : Host) (arms : Nat → Bool) (fuel : Nat) (snapshot : Option Snapshot),
      host.controller = origin →
      (∀ outcome after, host.executeOnce arms fuel snapshot = some (outcome, after) →
        after.controller.signal.armed = false ∧
          ∃ entries, Course origin entries after.controller) ∧
      ∀ fault, Host.invoke host.config snapshot = .error fault →
        ∃ after, host.executeOnce arms fuel snapshot = some (.faulted fault, after) := by
  refine ⟨fun entry earlier course => course.confined_last idle, ?_⟩
  rintro host arms fuel snapshot rfl
  constructor
  · intro outcome after ended
    obtain ⟨before, earlier, course⟩ := Host.course_of_executeOnce idle ended
    exact ⟨(course.confined_last idle).cleared rfl, _, course⟩
  · intro fault refused
    rw [Host.executeOnce_eq, refused]
    exact ⟨_, rfl⟩

/-- A controller under a wait. -/
def waiting (milliseconds : Nat) : Controller := { policy := .timeout milliseconds }

/-- The course in which an invocation begins and time passes twice. -/
def elapsing (milliseconds first second : Nat) : List Entry :=
  let begun := (waiting milliseconds).beginRun.2
  [⟨begun.advance first, .advance second, (begun.advance first).advance second⟩,
    ⟨begun, .advance first, begun.advance first⟩,
    ⟨waiting milliseconds, .beginRun, begun⟩]

theorem course_elapsing (milliseconds first second : Nat) :
    Course (waiting milliseconds) (elapsing milliseconds first second)
      (((waiting milliseconds).beginRun.2.advance first).advance second) :=
  .cons (.cons (.cons .nil (.begins rfl)) (.advances first)) (.advances second)

/-- A timer of 200 milliseconds goes off in the second passing of time, and a host under it ends a
resumption that is refused with a clear signal. -/
theorem arms_confined_waiting :
    (waiting 200).guards = [] ∧
    (∃ began milliseconds, Live (elapsing 200 150 100) began ∧
      (waiting 200).policy = .timeout milliseconds ∧ began.before.now + milliseconds ≤ 250) ∧
    ∃ fault after,
      Host.executeOnce { Local.steppingFib 10000 with controller := waiting 200 } (fun _ => true) 0
        (some ⟨true, [⟨0, 99, [], []⟩], 0⟩) = some (.faulted fault, after) ∧
      after.controller.signal.armed = false := by
  have idle : (waiting 200).guards = [] := rfl
  obtain ⟨confined, hosts⟩ := arms_confined idle
  refine ⟨idle, ?_, ?_⟩
  · obtain ⟨began, milliseconds, live, -, waits, -, punctual⟩ :=
      (confined _ _ (course_elapsing 200 150 100)).timers 0 (by decide)
    have short : milliseconds ≤ longestWait := by
      cases waits
      decide
    exact ⟨began, milliseconds, live, waits, punctual short⟩
  · obtain ⟨ends, refuses⟩ := hosts { Local.steppingFib 10000 with controller := waiting 200 }
      (fun _ => true) 0 (some ⟨true, [⟨0, 99, [], []⟩], 0⟩) rfl
    obtain ⟨after, ended⟩ := refuses _ rfl
    exact ⟨_, after, ended, (ends _ _ ended).1⟩

/-- A timer that is set to more than thirty years goes off before its time. -/
theorem early_after_thirty_years :
    ((waiting 1000000000000).beginRun.2.advance 900000000000).signal.armed = false ∧
    (((waiting 1000000000000).beginRun.2.advance 900000000000).advance 50000000000).signal.armed =
      true ∧
    ¬ ∀ (origin : Controller) (entry : Entry) (earlier : List Entry) (index : Nat),
      origin.guards = [] → Course origin (entry :: earlier) entry.after → index ∈ entry.rings →
      ∃ began milliseconds, Live (entry :: earlier) began ∧ began.before.begun = index ∧
        origin.policy = .timeout milliseconds ∧
        began.before.now + milliseconds ≤ entry.after.now := by
  refine ⟨by decide, by decide, ?_⟩
  intro punctual
  obtain ⟨began, milliseconds, -, -, waits, come⟩ :=
    punctual _ _ _ 0 rfl (course_elapsing 1000000000000 900000000000 50000000000) (by decide)
  cases waits
  have passed_eq : (((waiting 1000000000000).beginRun.2.advance 900000000000).advance
      50000000000).now = 950000000000 := rfl
  rw [passed_eq] at come
  omega

end Controller

end Ferry
