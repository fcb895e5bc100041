import Ferry.Host.Local.Play
import Ferry.Program.Builtin
import Ferry.Proofs.Local.Following

/-!
# A local host that is left to itself comes to an end

At a gate at which it need not wait a host goes on by itself, and so it does in an invocation.
Between two instructions it takes at most three steps: it pauses, goes on from its gate, and
executes the next instruction, which a continuation does without looking at the signal. So the host
comes to an end if the uninterrupted computation does.
-/

namespace Ferry.Local

variable {host next : Local} {engine : Engine} {begun : Except Fault Invocation}
  {directory : Directory} {passed : Nat}

/-- A host that does nothing by itself has ended or waits for the operator. -/
theorem proceeds_or_waits (goes : host.result? = none) :
    (host.step .proceed).isSome = true ∨ host.waits = true := by
  simp only [step, proceed, waits, result?] at goes ⊢
  cases stage : host.stage with
  | ended result => simp [stage] at goes
  | running guard invocation => exact .inl rfl
  | gate pending =>
      cases guarded : host.config.policy.isManual <;> cases queued : host.queued <;>
        cases present : host.keyboardOpen <;> simp

/-- How far a host is from its next instruction, which it executes with rank two or zero. -/
def rank (host : Local) : Nat :=
  match host.stage with
  | .gate none => 3
  | .running _ ⟨_, true⟩ => 2
  | .gate (some _) => 1
  | .running _ ⟨_, false⟩ => 0
  | .ended _ => 0

theorem rank_le_two {guard : Nat} {invocation : Invocation}
    (running : host.stage = .running guard invocation) : host.rank ≤ 2 := by
  rcases invocation with ⟨machine, consults⟩
  cases consults <;> simp [rank, running]

theorem Launched.rank_lt {pending : Option Snapshot} (launched : host.Launched pending next)
    (gate : host.stage = .gate pending) (suits : host.config.engine = engine)
    (resumable : engine.Resumable begun) (follows : host.Follows engine begun directory passed)
    (goes : next.result? = none) : next.rank < host.rank := by
  cases launched with
  | fails | misfits => simp [result?] at goes
  | @begins invocation _ invoked =>
      cases pending with
      | none =>
          have first : host.rank = 3 := by rw [rank, gate]
          rw [first]
          exact Nat.lt_succ_of_le (rank_le_two rfl)
      | some snapshot =>
          obtain ⟨machine, resumed, -⟩ := follows.resumes gate suits resumable
          rw [resumed] at invoked
          cases invoked
          have later : host.rank = 1 := by rw [rank, gate]
          rw [later]
          exact Nat.one_pos

/-- Every step of a host by itself ends the run, or fewer instructions are left, or as many and the
next one is nearer. -/
theorem Moves.nearer (moves : host.Moves .proceed next)
    (suits : host.config.engine = engine) (resumable : engine.Resumable begun)
    (follows : host.Follows engine begun directory passed) (goes : next.result? = none)
    {total : Nat} {outcome : Outcome Fault} (ends : engine.EndsAfter begun total outcome) :
    3 * (total - (passed + host.executes .proceed)) + next.rank <
      3 * (total - passed) + host.rank := by
  cases moves with
  | @launches _ pending opened _ gate opens launched =>
      rw [executes_of_gate gate, Nat.add_zero]
      apply Nat.add_lt_add_left
      cases opens <;>
        exact launched.rank_lt gate suits resumable (follows.congr rfl rfl rfl rfl) goes
  | goes running quiet =>
      have lt := (follows.stands running).lt_of_endsAfter ends
      rw [executes_of_quiet running quiet]
      simp only [rank]
      omega
  | @settles guard invocation _ _ _ running ended settled =>
      cases settled with
      | completes | exports | unwritten | faults | misfits => simp [result?] at goes
      | pauses =>
          rcases ended with ⟨pauses, -⟩ | ⟨-, ended⟩
          · rcases invocation with ⟨machine, consults⟩
            obtain rfl : consults = true := ((Bool.and_eq_true _ _).mp pauses).1
            rw [executes_of_pauses running pauses, Nat.add_zero]
            simp [rank, running]
          · cases Engine.not_isPaused_of_end? ended
  | aborts => simp [result?] at goes

/-- An unattended host that is left to itself comes to its end, if the computation has one. -/
theorem Follows.comesToEnd (follows : host.Follows engine begun directory passed)
    (orderly : host.Orderly) (suits : host.config.engine = engine)
    (resumable : engine.Resumable begun) (unattended : host.config.policy.isManual = false)
    {outcome : Outcome Fault} (ends : engine.Ends begun outcome) :
    ∃ fuel passed', (host.work fuel).Follows engine begun directory passed' ∧
      (host.work fuel).config = host.config ∧ (host.work fuel).result?.isSome = true := by
  obtain ⟨total, ends⟩ := Engine.ends_iff_exists_endsAfter.mp ends
  -- Strong induction on what is left to do.
  induction left : 3 * (total - passed) + host.rank using Nat.strongRecOn
    generalizing host passed with
  | ind _ ih =>
      cases goes : host.result? with
      | some result => exact ⟨0, passed, follows, rfl, by rw [work, goes]; rfl⟩
      | none =>
          have able : (host.step .proceed).isSome = true := by
            rcases proceeds_or_waits goes with able | waits
            · exact able
            · rw [Local.waits] at waits
              split at waits <;> simp [unattended] at waits
          obtain ⟨next, stepped⟩ := Option.isSome_iff_exists.mp able
          have moves := moves_of_step stepped
          have attends : host.Attends .proceed := ⟨nofun, by simp [unattended]⟩
          have onward := moves.follows attends orderly suits resumable follows
          have works : ∀ fuel, host.work (fuel + 1) = next.work fuel := by
            intro fuel
            rw [work, show host.proceed = some next from stepped]
          have further : ∃ fuel passed', (next.work fuel).Follows engine begun directory passed' ∧
              (next.work fuel).config = next.config ∧
              (next.work fuel).result?.isSome = true := by
            cases ended : next.result? with
            | some result => exact ⟨0, _, onward, rfl, by rw [work, ended]; rfl⟩
            | none =>
                have nearer := moves.nearer suits resumable follows ended ends
                rw [left] at nearer
                exact ih _ nearer onward (moves.orderly orderly) (moves.config_eq ▸ suits)
                  (moves.config_eq ▸ unattended) rfl
          obtain ⟨fuel, passed', further, config, finished⟩ := further
          rw [← works] at further config finished
          exact ⟨fuel + 1, passed', further, config.trans moves.config_eq, finished⟩

/-- A local host that runs `fib` and pauses at every instruction. -/
def steppingFib (limit : Nat) (fromSnapshot : Option String := none) (exportOnly : Bool := false) :
    Host where
  config := {
    program := .fib
    arguments := [1]
    mode := .local
    peer := none
    listen := Config.defaultListen
    policy := .stepAll
    fromSnapshot
    exportOnly
    exportPath := Config.defaultExportPath
    startImmediately := false
    transportTimeout := Config.defaultTransportTimeout
    finishGrace := Config.defaultFinishGrace
    maxCallDepth := limit }
  caller := none
  session := { mode := .local, peer := none, id := ⟨List.replicate 16 2, rfl⟩ }
  controller := { policy := .stepAll }

end Ferry.Local
