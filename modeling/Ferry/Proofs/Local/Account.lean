import Mathlib.Algebra.GroupWithZero.Nat
import Ferry.Proofs.Controller
import Ferry.Proofs.Local.Following

/-!
# What a run of a local host costs

An account of a run tells for each invocation how many instructions it has executed. Every
invocation after the first executes at least one, because a continuation does not consult the signal
before its first instruction; so there is at most one invocation more than there are instructions.
If every instruction is a pause, the first invocation executes nothing and every other one exactly
one instruction.
-/

namespace Ferry.Local

variable {host next : Local} {event : Event} {engine : Engine} {begun : Except Fault Invocation}
  {directory : Directory}

/-- What a host has done. -/
structure Account where
  /-- For each invocation, newest first, how many instructions it has executed. -/
  executed : List Nat := []
  /-- How often the host has done something by itself. -/
  proceeds : Nat := 0

/-- The account after an event; if a guard was made in it, an invocation has begun. -/
def Account.extend (account : Account) (host : Local) (event : Event) (next : Local) : Account where
  executed :=
    if host.controller.begun < next.controller.begun then 0 :: account.executed
    else account.executed.modifyHead (· + host.executes event)
  proceeds := if event = .proceed then account.proceeds + 1 else account.proceeds

/-- How often a host may have done something by itself: besides its instructions an invocation has a
beginning and a pause. -/
def Account.cost (account : Account) : Nat := 2 * account.executed.length + account.executed.sum

/-- The account of a course of events, after an earlier account. -/
def account (host : Local) : List Event → Account → Account
  | [], earlier => earlier
  | event :: rest, earlier =>
      match host.step event with
      | none => earlier
      | some next => next.account rest (earlier.extend host event next)

/-- The invocations of a run, newest first, each of which has ended with a pause or is free to go on
or to end: all but the first have executed something. Under the policy that pauses at every
instruction the first has executed nothing and the others one instruction each. -/
inductive Spent (policy : Policy) : List Nat → Prop where
  | first {count : Nat} (stepping : policy = .stepAll → count = 0) : Spent policy [count]
  | more {count : Nat} {earlier : List Nat} (spent : Spent policy earlier) (progress : 1 ≤ count)
      (stepping : policy = .stepAll → count = 1) : Spent policy (count :: earlier)

namespace Spent

variable {policy : Policy} {counts : List Nat}

theorem length_le (spent : Spent policy counts) : counts.length ≤ counts.sum + 1 := by
  induction spent with
  | first => simp
  | more _ progress _ ih =>
      rw [List.length_cons, List.sum_cons]
      omega

theorem progress (spent : Spent policy counts) : ∀ count ∈ counts.dropLast, 1 ≤ count := by
  induction spent with
  | first => simp
  | @more count earlier spent progress _ ih =>
      have occupied : earlier ≠ [] := by cases spent <;> simp
      rw [List.dropLast_cons_of_ne_nil occupied]
      exact List.forall_mem_cons.mpr ⟨progress, ih⟩

theorem eq_of_stepAll (spent : Spent policy counts) (stepping : policy = .stepAll) :
    counts = List.replicate counts.sum 1 ++ [0] := by
  induction spent with
  | first none => simp [none stepping]
  | @more count earlier _ _ one ih =>
      rw [one stepping, List.sum_cons, Nat.add_comm, List.replicate_succ, List.cons_append, ← ih]

/-- The newest invocation executes one more instruction, unless every instruction is a pause. -/
theorem modifyHead (spent : Spent policy counts) (unarmed : policy ≠ .stepAll) :
    Spent policy (counts.modifyHead (· + 1)) := by
  cases spent with
  | first => exact .first (absurd · unarmed)
  | more spent => exact .more spent (Nat.le_add_left 1 _) (absurd · unarmed)

theorem sum_modifyHead (spent : Spent policy counts) :
    (counts.modifyHead (· + 1)).sum = counts.sum + 1 := by
  cases spent <;> simp [Nat.add_right_comm]

end Spent

namespace Account

variable {account : Account}

theorem extend_of_begins (begins : next.controller.begun = host.controller.begun + 1) :
    (account.extend host event next).executed = 0 :: account.executed ∧
      (account.extend host event next).proceeds ≤ account.proceeds + 1 := by
  constructor
  · simp [extend, begins]
  · simp only [extend]
    split
    · exact Nat.le_refl _
    · exact Nat.le_succ _

theorem extend_of_executes (none : next.controller.begun = host.controller.begun)
    (executes : host.executes .proceed = 1) :
    account.extend host .proceed next =
      ⟨account.executed.modifyHead (· + 1), account.proceeds + 1⟩ := by
  simp [extend, none, executes]

theorem extend_of_pauses (none : next.controller.begun = host.controller.begun)
    (pauses : host.executes .proceed = 0) :
    account.extend host .proceed next = ⟨account.executed, account.proceeds + 1⟩ := by
  rcases account with ⟨executed, proceeds⟩
  cases executed <;> simp [extend, none, pauses]

theorem extend_of_silent (none : next.controller.begun = host.controller.begun)
    (silent : event ≠ .proceed) : account.extend host event next = account := by
  have idle : host.executes event = 0 := by
    cases event <;> first | rfl | exact absurd rfl silent
  rcases account with ⟨executed, proceeds⟩
  cases executed <;> simp [extend, none, silent, idle]

end Account

/-- What the account of a host is like, wherever the host stands. -/
inductive Accounted (host : Local) (account : Account) : Prop where
  /-- Nothing has been done yet. -/
  | fresh (gate : host.stage = .gate none) (executed : account.executed = [])
      (proceeds : account.proceeds = 0)
  | paused {snapshot : Snapshot} (gate : host.stage = .gate (some snapshot))
      (spent : Spent host.config.policy account.executed)
      (cost : account.proceeds ≤ account.cost)
  /-- The invocation may pause at once. -/
  | consults {guard : Nat} {machine : Machine}
      (running : host.stage = .running guard ⟨machine, true⟩)
      (spent : Spent host.config.policy account.executed)
      (armed : host.config.policy = .stepAll → host.controller.signal.armed = true)
      (cost : account.proceeds < account.cost)
  /-- The invocation is a continuation and has not executed anything yet. -/
  | resumed {guard : Nat} {machine : Machine} {earlier : List Nat}
      (running : host.stage = .running guard ⟨machine, false⟩)
      (executed : account.executed = 0 :: earlier) (spent : Spent host.config.policy earlier)
      (armed : host.config.policy = .stepAll → host.controller.signal.armed = true)
      (cost : account.proceeds < account.cost)
  | ended {result : Except Failure Exit} (ended : host.stage = .ended result)
      (spent : Spent host.config.policy account.executed)
      (cost : account.proceeds ≤ account.cost)

namespace Accounted

variable {account : Account}

theorem congr (accounted : host.Accounted account) (stage : next.stage = host.stage)
    (config : next.config = host.config)
    (armed : host.controller.signal.armed = true → next.controller.signal.armed = true) :
    next.Accounted account := by
  cases accounted with
  | fresh gate executed proceeds => exact .fresh (stage.trans gate) executed proceeds
  | paused gate spent cost => exact .paused (stage.trans gate) (config ▸ spent) cost
  | consults running spent kept cost =>
      exact .consults (stage.trans running) (config ▸ spent)
        (fun stepping => armed (kept (config ▸ stepping))) cost
  | resumed running executed spent kept cost =>
      exact .resumed (stage.trans running) executed (config ▸ spent)
        (fun stepping => armed (kept (config ▸ stepping))) cost
  | ended ended spent cost => exact .ended (stage.trans ended) (config ▸ spent) cost

/-- Under the policy that pauses at every instruction the signal is armed in every invocation. -/
theorem armed (accounted : host.Accounted account) {guard : Nat} {invocation : Invocation}
    (running : host.stage = .running guard invocation) (stepping : host.config.policy = .stepAll) :
    host.controller.signal.armed = true := by
  cases accounted with
  | consults _ _ armed | resumed _ _ _ armed => exact armed stepping
  | fresh gate | paused gate => simp [running] at gate
  | ended ended => simp [running] at ended

/-- An invocation that pauses has executed what it had to. -/
theorem pausing (accounted : host.Accounted account) {guard : Nat} {invocation : Invocation}
    (running : host.stage = .running guard invocation) (pauses : host.pauses invocation = true) :
    Spent host.config.policy account.executed ∧ account.proceeds < account.cost := by
  have consulting : invocation.consults = true := ((Bool.and_eq_true _ _).mp pauses).1
  cases accounted with
  | consults _ spent _ cost => exact ⟨spent, cost⟩
  | resumed resumed =>
      rw [running] at resumed
      cases resumed
      contradiction
  | fresh gate | paused gate => simp [running] at gate
  | ended ended => simp [running] at ended

/-- An invocation that does not pause executes one more instruction. If every instruction is a pause
it is the first one after a continuation. -/
theorem executing (accounted : host.Accounted account) {guard : Nat} {invocation : Invocation}
    (running : host.stage = .running guard invocation) (quiet : host.pauses invocation = false) :
    Spent host.config.policy (account.executed.modifyHead (· + 1)) ∧
      (account.executed.modifyHead (· + 1)).sum = account.executed.sum + 1 ∧
      account.proceeds + 1 <
        (⟨account.executed.modifyHead (· + 1), account.proceeds + 1⟩ : Account).cost := by
  cases accounted with
  | consults consulting spent armed cost =>
      rw [running] at consulting
      cases consulting
      have unarmed : host.config.policy ≠ .stepAll := by
        intro stepping
        simp [pauses, armed stepping] at quiet
      refine ⟨spent.modifyHead unarmed, spent.sum_modifyHead, ?_⟩
      simp only [Account.cost, List.length_modifyHead, spent.sum_modifyHead] at cost ⊢
      omega
  | resumed _ executed spent _ cost =>
      simp only [Account.cost, executed, List.modifyHead_cons, List.length_cons,
        List.sum_cons] at cost ⊢
      exact ⟨.more spent (Nat.le_refl 1) fun _ => rfl, by omega, by omega⟩
  | fresh gate | paused gate => simp [running] at gate
  | ended ended => simp [running] at ended

end Accounted

theorem Launched.begun_eq {pending : Option Snapshot} (launched : host.Launched pending next)
    (edge : host.session.phase.mayBecome (Session.phaseOnReceipt pending) = true) :
    next.controller.begun = host.controller.begun + 1 := by
  cases launched with
  | begins => simp
  | fails => simp
  | misfits noEdge =>
      rw [edge] at noEdge
      contradiction

theorem Settled.begun_eq {outcome : Outcome Fault} (settled : host.Settled outcome next) :
    next.controller.begun = host.controller.begun := by
  cases settled <;> rfl

/-- A new invocation has executed nothing yet. -/
theorem Launched.accounted {pending : Option Snapshot} {passed : Nat} {account later : Account}
    (launched : host.Launched pending next) (gate : host.stage = .gate pending)
    (suits : host.config.engine = engine) (resumable : engine.Resumable begun)
    (free : host.session.phase = .idle ∨ host.session.phase = .paused ∧ pending.isSome = true)
    (policed : host.controller.policy = host.config.policy)
    (follows : host.Follows engine begun directory passed) (accounted : host.Accounted account)
    (executed : later.executed = 0 :: account.executed)
    (proceeds : later.proceeds ≤ account.proceeds + 1) : next.Accounted later := by
  have armed : host.config.policy = .stepAll →
      host.controller.beginRun.2.signal.armed = true :=
    fun stepping => Controller.armed_beginRun (policed.trans stepping)
  cases pending with
  | none =>
      have first : account.executed = [] ∧ account.proceeds = 0 := by
        cases accounted with
        | fresh _ executed proceeds => exact ⟨executed, proceeds⟩
        | paused paused => simp [gate] at paused
        | consults running | resumed running => simp [gate] at running
        | ended ended => simp [gate] at ended
      rw [first.1] at executed
      have spent : Spent host.config.policy later.executed := by
        rw [executed]
        exact .first fun _ => rfl
      have cost : later.proceeds < later.cost := by
        simp only [Account.cost, executed, List.length_singleton, List.sum_singleton]
        omega
      cases launched with
      | @begins invocation _ invoked =>
          obtain ⟨_, _, _, same⟩ := Engine.start_of_call invoked
          rw [same]
          exact .consults rfl spent armed cost
      | fails => exact .ended rfl spent (Nat.le_of_lt cost)
      | misfits noEdge => exact absurd (mayLaunch_of_free free) (ne_true_of_eq_false noEdge)
  | some snapshot =>
      obtain ⟨machine, resumed, -⟩ := follows.resumes gate suits resumable
      cases accounted with
      | fresh fresh => simp [gate] at fresh
      | consults running | resumed running => simp [gate] at running
      | ended ended => simp [gate] at ended
      | paused _ spent cost =>
          have cost : later.proceeds < later.cost := by
            simp only [Account.cost, executed, List.length_cons, List.sum_cons] at cost ⊢
            omega
          cases launched with
          | begins _ invoked =>
              rw [resumed] at invoked
              cases invoked
              exact .resumed rfl executed spent armed cost
          | fails _ invoked =>
              rw [resumed] at invoked
              cases invoked
          | misfits noEdge => exact absurd (mayLaunch_of_free free) (ne_true_of_eq_false noEdge)

/-- When an invocation has ended, it has paused or executed its last instruction, and neither
happens before it has consulted the signal or executed an instruction. -/
theorem Settled.accounted {outcome : Outcome Fault} {account : Account}
    (settled : host.Settled outcome next) (active : host.session.phase.isActive = true)
    (spent : Spent host.config.policy account.executed) (cost : account.proceeds ≤ account.cost) :
    next.Accounted account := by
  cases settled with
  | pauses => exact .paused rfl spent cost
  | completes | exports | unwritten | faults => exact .ended rfl spent cost
  | misfits inactive =>
      rw [active] at inactive
      contradiction

/-- Every event is accounted for, with the instructions that are executed in it. -/
theorem Moves.accounted {passed : Nat} {account : Account} (moves : host.Moves event next)
    (attends : host.Attends event) (orderly : host.Orderly) (suits : host.config.engine = engine)
    (resumable : engine.Resumable begun) (policed : host.controller.policy = host.config.policy)
    (follows : host.Follows engine begun directory passed) (accounted : host.Accounted account) :
    next.Accounted (account.extend host event next) ∧
      (account.extend host event next).executed.sum =
        account.executed.sum + host.executes event := by
  cases moves with
  | @launches event pending opened _ gate opens launched =>
      have free := orderly.gate _ gate
      have begins : next.controller.begun = host.controller.begun + 1 := by
        cases opens <;> exact launched.begun_eq (mayLaunch_of_free free)
      have extended : (account.extend host event next).executed = 0 :: account.executed ∧
          (account.extend host event next).proceeds ≤ account.proceeds + 1 :=
        Account.extend_of_begins begins
      constructor
      · cases opens <;>
          exact launched.accounted gate suits resumable free policed
            (follows.congr rfl rfl rfl rfl) (accounted.congr rfl rfl (by simp [Host.request]))
            extended.1 extended.2
      · rw [extended.1, executes_of_gate gate, List.sum_cons, Nat.zero_add, Nat.add_zero]
  | goes running quiet goes =>
      obtain ⟨spent, sum, cost⟩ := accounted.executing running quiet
      have one := executes_of_quiet running quiet
      rw [Account.extend_of_executes _ one, one]
      · exact ⟨.consults rfl spent (accounted.armed running) cost, sum⟩
      · rfl
  | settles running ended settled =>
      have active := orderly.running _ _ running
      have none : next.controller.begun = host.controller.begun :=
        settled.begun_eq.trans (Controller.begun_drop _ _)
      rcases ended with ⟨pauses, -⟩ | ⟨quiet, -⟩
      · obtain ⟨spent, cost⟩ := accounted.pausing running pauses
        have nothing := executes_of_pauses running pauses
        rw [Account.extend_of_pauses none nothing, nothing]
        exact ⟨settled.accounted active spent cost, rfl⟩
      · obtain ⟨spent, sum, cost⟩ := accounted.executing running quiet
        have one := executes_of_quiet running quiet
        rw [Account.extend_of_executes none one, one]
        exact ⟨settled.accounted active spent (Nat.le_of_lt cost), sum⟩
  | aborts cause => exact absurd cause attends.not_stopped
  | queues | closes =>
      rw [Account.extend_of_silent]
      · exact ⟨accounted.congr rfl rfl id, rfl⟩
      · rfl
      · simp
  | requests =>
      rw [Account.extend_of_silent]
      · exact ⟨accounted.congr rfl rfl fun _ => rfl, rfl⟩
      · rfl
      · simp
  | elapses =>
      rw [Account.extend_of_silent]
      · exact ⟨accounted.congr rfl rfl fun armed => Controller.armed_advance armed _, rfl⟩
      · rfl
      · simp

end Ferry.Local
