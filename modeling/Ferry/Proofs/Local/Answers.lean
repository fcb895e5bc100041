import Ferry.Proofs.Local.Account
import Ferry.Proofs.Local.Progress

/-!
# A local host answers as the uninterrupted call

A run of a local host that is not stopped and not told to leave its computation in a file ends as
the uninterrupted call of its program does, whatever its policy, and whenever a timer or the
operator asks for a pause. It never gets stuck: it goes on by itself unless it waits for an operator
who is there, and how often it does so is bounded by the number of instructions.

The limit on live activations must allow one of them. With a limit of zero the call of a function
succeeds, but the continuation of its first pause is refused.
-/

namespace Ferry

/-- The call of the program of a configuration. -/
def Config.call (config : Config) : Except Fault Invocation :=
  config.engine.call config.program.entry config.arguments

namespace Local

variable {host next : Local} {event : Event} {config : Config} {directory : Directory}
  {account : Account}

/-- Over a course of events, neither does the operator stop the run nor leave while gates have to be
opened. -/
structure Attended (host : Local) (events : List Event) : Prop where
  patient : .key .abort ∉ events
  present : host.config.policy.isManual = true →
    host.keyboardOpen = true ∧ .closeKeyboard ∉ events

theorem Attended.attends {rest : List Event} (attended : host.Attended (event :: rest)) :
    host.Attends event where
  patient same := attended.patient (same ▸ List.mem_cons_self)
  present guarded := by
    obtain ⟨open_, stays⟩ := attended.present guarded
    exact ⟨open_, fun same => stays (same ▸ List.mem_cons_self)⟩

theorem Attended.step {rest : List Event} (attended : host.Attended (event :: rest))
    (moves : host.Moves event next) : next.Attended rest where
  patient member := attended.patient (List.mem_cons_of_mem _ member)
  present guarded := by
    rw [moves.config_eq] at guarded
    obtain ⟨present, stays⟩ := attended.present guarded
    constructor
    · rw [moves.keyboardOpen_eq (attended.attends.present guarded).2]
      exact present
    · exact fun member => stays (List.mem_cons_of_mem _ member)

theorem Moves.policy_eq (moves : host.Moves event next) (attends : host.Attends event) :
    next.controller.policy = host.controller.policy := by
  cases moves with
  | launches _ opens launched =>
      cases opens <;> cases launched <;> simp [Host.request]
  | goes | queues | closes => rfl
  | settles _ _ settled => cases settled <;> simp
  | aborts cause => exact absurd cause attends.not_stopped
  | requests | elapses => rfl

/-- A host is on its way with the call of its configuration, and the account tells how far. -/
structure Underway (config : Config) (directory : Directory) (account : Account)
    (host : Local) : Prop where
  config_eq : host.config = config
  policed : host.controller.policy = host.config.policy
  orderly : host.Orderly
  follows : host.Follows config.engine config.call directory account.executed.sum
  accounted : host.Accounted account

theorem Underway.step (underway : host.Underway config directory account)
    (resumable : config.engine.Resumable config.call) (attends : host.Attends event)
    (moves : host.Moves event next) :
    next.Underway config directory (account.extend host event next) := by
  have suits : host.config.engine = config.engine := by rw [underway.config_eq]
  have extended := moves.accounted attends underway.orderly suits resumable underway.policed
    underway.follows underway.accounted
  constructor
  case config_eq => exact moves.config_eq.trans underway.config_eq
  case policed => rw [moves.policy_eq attends, moves.config_eq, underway.policed]
  case orderly => exact moves.orderly underway.orderly
  case follows =>
    rw [extended.2]
    exact moves.follows attends underway.orderly suits resumable underway.follows
  case accounted => exact extended.1

theorem Underway.run (underway : host.Underway config directory account)
    (resumable : config.engine.Resumable config.call) {events : List Event} {later : Local}
    (attended : host.Attended events) (course : host.run events = some later) :
    later.Underway config directory (host.account events account) := by
  induction events generalizing host account with
  | nil =>
      cases course
      exact underway
  | cons event rest ih =>
      obtain ⟨next, stepped, course⟩ := Option.bind_eq_some_iff.mp course
      have moves := moves_of_step stepped
      have onward := underway.step resumable attended.attends moves
      rw [Local.account, stepped]
      exact ih onward (attended.step moves) course

/-- A host that is not to start from a file stands before the call. -/
theorem Underway.start {host : Host} (idle : host.session.phase = .idle)
    (policed : host.controller.policy = host.config.policy)
    (fresh : host.config.fromSnapshot = none) (directory : Directory) (keyboardOpen : Bool) :
    (Local.start host directory keyboardOpen).Underway host.config directory {} := by
  have gate : (Local.start host directory keyboardOpen).stage = .gate none :=
    stage_start (by rw [Host.loadInitial, fresh]) keyboardOpen
  constructor
  case config_eq => rfl
  case policed => exact policed
  case orderly => exact .start idle directory keyboardOpen
  case follows => exact .fresh gate rfl rfl rfl
  case accounted => exact .fresh gate rfl rfl

/-- How a run goes that carries on a computation to its end, at any time of it. -/
structure Transparent (engine : Engine) (begun : Except Fault Invocation) (account : Account)
    (host : Local) : Prop where
  /-- At its end it reports the outcome of the uninterrupted computation, and it has executed just
  the instructions of that. -/
  answers : host.result?.isSome = true → ∃ outcome, host.Reports outcome ∧
    engine.Ends begun outcome ∧ engine.EndsAfter begun account.executed.sum outcome
  /-- Before that the host goes on by itself, or it waits for an operator who is there. -/
  goesOn : host.result? = none → (host.step .proceed).isSome = true ∨ host.waits = true
  /-- Unattended and left to itself, it comes to its end if the uninterrupted computation has one.
  -/
  finishes : host.config.policy.isManual = false → ∀ outcome, engine.Ends begun outcome →
    ∃ fuel, (host.work fuel).Reports outcome
  /-- Every invocation after the first executes something, unless it is the one in flight. -/
  progress : ∀ count ∈ account.executed.tail.dropLast, 1 ≤ count
  progress_all : host.result?.isSome = true → ∀ count ∈ account.executed.dropLast, 1 ≤ count
  /-- There is at most one invocation more than there are instructions. -/
  invocations_le : ∀ total outcome, engine.EndsAfter begun total outcome →
    account.executed.length ≤ total + 1
  /-- How often the host does something by itself is bounded. -/
  proceeds_le : ∀ total outcome, engine.EndsAfter begun total outcome →
    account.proceeds ≤ 3 * total + 2
  /-- If every instruction is a pause, there is exactly one invocation more. The first one executes
  nothing and every other one a single instruction. -/
  stepping : host.config.policy = .stepAll → host.result?.isSome = true →
    ∀ total outcome, engine.EndsAfter begun total outcome →
      account.executed = List.replicate total 1 ++ [0]

namespace Accounted

theorem length_le (accounted : host.Accounted account) :
    account.executed.length ≤ account.executed.sum + 2 := by
  cases accounted with
  | fresh _ executed => simp [executed]
  | paused _ spent | consults _ spent | ended _ spent => exact Nat.le_succ_of_le spent.length_le
  | resumed _ executed spent =>
      have bound := spent.length_le
      rw [executed, List.length_cons, List.sum_cons]
      omega

theorem progress (accounted : host.Accounted account) :
    ∀ count ∈ account.executed.tail.dropLast, 1 ≤ count := by
  have of_spent : Spent host.config.policy account.executed →
      ∀ count ∈ account.executed.tail.dropLast, 1 ≤ count := by
    intro spent count member
    rw [← List.tail_dropLast] at member
    exact spent.progress count (List.mem_of_mem_tail member)
  cases accounted with
  | fresh _ executed => simp [executed]
  | paused _ spent | consults _ spent | ended _ spent => exact of_spent spent
  | resumed _ executed spent =>
      rw [executed]
      exact spent.progress

theorem spent_of_result (accounted : host.Accounted account)
    (ended : host.result?.isSome = true) : Spent host.config.policy account.executed := by
  cases accounted with
  | fresh gate | paused gate => simp [result?, gate] at ended
  | consults running | resumed running => simp [result?, running] at ended
  | ended _ spent => exact spent

theorem cost (accounted : host.Accounted account) : account.proceeds ≤ account.cost := by
  cases accounted with
  | fresh _ _ proceeds => exact proceeds ▸ Nat.zero_le _
  | paused _ _ cost | ended _ _ cost => exact cost
  | consults _ _ _ cost | resumed _ _ _ _ cost => exact Nat.le_of_lt cost

end Accounted

namespace Underway

theorem reports (underway : host.Underway config directory account)
    (stays : config.exportOnly = false) (ended : host.result?.isSome = true) :
    ∃ outcome, host.Reports outcome ∧
      config.engine.EndsAfter config.call account.executed.sum outcome :=
  underway.follows.reports (underway.config_eq ▸ stays) ended

/-- While an invocation is in flight or another one is to follow, instructions are left. -/
theorem sum_lt (underway : host.Underway config directory account) (goes : host.result? = none)
    (executed : account.executed ≠ []) {total : Nat} {outcome : Outcome Fault}
    (ends : config.engine.EndsAfter config.call total outcome) : account.executed.sum < total := by
  cases underway.follows with
  | paused _ _ stands | running _ _ stands => exact stands.lt_of_endsAfter ends
  | completed ended | faulted ended | exported ended | unwritten ended =>
      simp [result?, ended] at goes
  | fresh gate =>
      cases underway.accounted with
      | fresh _ nothing => contradiction
      | paused paused => simp [gate] at paused
      | consults running | resumed running => simp [gate] at running
      | ended ended => simp [gate] at ended

theorem finishes (underway : host.Underway config directory account)
    (resumable : config.engine.Resumable config.call) (stays : config.exportOnly = false)
    (unattended : host.config.policy.isManual = false) {outcome : Outcome Fault}
    (ends : config.engine.Ends config.call outcome) : ∃ fuel, (host.work fuel).Reports outcome := by
  have suits : host.config.engine = config.engine := by rw [underway.config_eq]
  obtain ⟨fuel, passed, follows, same, ended⟩ :=
    underway.follows.comesToEnd underway.orderly suits resumable unattended ends
  have home : (host.work fuel).config.exportOnly = false := by
    rw [same, underway.config_eq, stays]
  obtain ⟨other, reports, endsAfter⟩ := follows.reports home ended
  rw [endsAfter.ends.unique ends] at reports
  exact ⟨fuel, reports⟩

theorem transparent (underway : host.Underway config directory account)
    (resumable : config.engine.Resumable config.call) (stays : config.exportOnly = false) :
    host.Transparent config.engine config.call account := by
  have result_cases : host.result? = none ∨ host.result?.isSome = true := by
    cases host.result? <;> simp
  have executed_le : ∀ total outcome, config.engine.EndsAfter config.call total outcome →
      account.executed.sum ≤ total ∧ account.executed.length ≤ total + 1 := by
    intro total outcome ends
    rcases result_cases with goes | ended
    · by_cases executed : account.executed = []
      · simp [executed]
      · have lt := underway.sum_lt goes executed ends
        have bound := underway.accounted.length_le
        omega
    · obtain ⟨_, -, reported⟩ := underway.reports stays ended
      have bound := (underway.accounted.spent_of_result ended).length_le
      rw [reported.length_unique ends] at bound ⊢
      exact ⟨Nat.le_refl _, bound⟩
  constructor
  case answers =>
    intro ended
    obtain ⟨outcome, reports, ends⟩ := underway.reports stays ended
    exact ⟨outcome, reports, ends.ends, ends⟩
  case goesOn => exact proceeds_or_waits
  case finishes => exact fun unattended _ => underway.finishes resumable stays unattended
  case progress => exact underway.accounted.progress
  case progress_all => exact fun ended => (underway.accounted.spent_of_result ended).progress
  case invocations_le => exact fun total outcome ends => (executed_le total outcome ends).2
  case proceeds_le =>
    intro total outcome ends
    have bounds := executed_le total outcome ends
    have cost := underway.accounted.cost
    rw [Account.cost] at cost
    omega
  case stepping =>
    intro stepping ended total outcome ends
    obtain ⟨_, -, reported⟩ := underway.reports stays ended
    rw [← reported.length_unique ends]
    exact (underway.accounted.spent_of_result ended).eq_of_stepAll stepping

end Underway

/-- A local host that is not told to leave its computation in a file carries on the call of its
program to the end, if the limit allows one activation. -/
theorem transparent_of_limit {host : Host} {directory : Directory} {keyboardOpen : Bool}
    (idle : host.session.phase = .idle) (policed : host.controller.policy = host.config.policy)
    (fresh : host.config.fromSnapshot = none) (stays : host.config.exportOnly = false)
    (addressable : host.config.program.module.Addressable)
    (limit_pos : 1 ≤ host.config.maxCallDepth) {events : List Event}
    (attended : (start host directory keyboardOpen).Attended events) {later : Local}
    (course : (start host directory keyboardOpen).run events = some later) :
    later.Transparent host.config.engine host.config.call
      ((start host directory keyboardOpen).account events {}) := by
  have resumable : host.config.engine.Resumable host.config.call :=
    Engine.resumable_call addressable limit_pos _ _
  exact ((Underway.start idle policed fresh directory keyboardOpen).run resumable attended
    course).transparent resumable stays

/-- With room for one activation it takes seven invocations for six instructions. -/
theorem transparent_of_limit_fib :
    ∃ later, (start (steppingFib 1) {} false).run (List.replicate 19 .proceed) = some later ∧
      later.Reports (.completed [1]) ∧
      (steppingFib 1).config.engine.Ends (steppingFib 1).config.call (.completed [1]) ∧
      ((start (steppingFib 1) {} false).account (List.replicate 19 .proceed) {}).executed =
        [1, 1, 1, 1, 1, 1, 0] := by
  have course : ∃ later,
      (start (steppingFib 1) {} false).run (List.replicate 19 .proceed) = some later ∧
        later.config.policy = .stepAll ∧ later.result? = some (.ok (.completed [1])) :=
    ⟨_, rfl, rfl, rfl⟩
  obtain ⟨later, ran, stepping, result⟩ := course
  have attended : (start (steppingFib 1) {} false).Attended (List.replicate 19 .proceed) :=
    ⟨by decide, by decide⟩
  have transparent := transparent_of_limit rfl rfl rfl rfl Program.addressable_fib
    (by decide) attended ran
  have ended : later.result?.isSome = true := by rw [result]; rfl
  obtain ⟨outcome, reports, ends, -⟩ := transparent.answers ended
  have six : (steppingFib 1).config.engine.EndsAfter (steppingFib 1).config.call 6
      (.completed [1]) := .executed ⟨_, rfl, rfl⟩ rfl
  have same : outcome = .completed [1] := ends.unique six.ends
  rw [same] at reports ends
  exact ⟨later, ran, reports, ends, transparent.stepping stepping ended 6 _ six⟩

/-- With no room for an activation the call returns all the same, but the host cannot go on after
its first pause. -/
theorem stepping_without_room :
    ∃ later, (start (steppingFib 0) {} false).run [.proceed, .proceed, .proceed] = some later ∧
      later.result? =
        some (.error (Fault.unrestorable (.callDepthExceeded 0)).toFailure) ∧
      (steppingFib 0).config.engine.Ends (steppingFib 0).config.call (.completed [1]) := by
  have six : (steppingFib 0).config.engine.EndsAfter (steppingFib 0).config.call 6
      (.completed [1]) := .executed ⟨_, rfl, rfl⟩ rfl
  exact ⟨_, rfl, rfl, six.ends⟩

end Local

end Ferry
