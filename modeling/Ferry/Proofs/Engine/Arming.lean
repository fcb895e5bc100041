import Ferry.Proofs.Engine.Sharing

/-!
# One capture for each arm

What a shared signal remembers is whether the latest of the arms, the disarms, the successful takes and
the captures was an arm. So every arm is observed at most once, by a capture or by a take, and several
arms in a row no more often than one. An invocation that could not begin has used up nothing.
-/

namespace Ferry.Sharing

namespace Occurrence

/-- Whether an occurrence settles that a pause is requested, or that it is not. -/
def effect? : Occurrence → Option Bool
  | .armed => some true
  | .disarmed | .took true | .turned _ (.ended (.paused _)) => some false
  | _ => none

/-- Whether an occurrence used up a request: a take that succeeded, or a capture. -/
def observes : Occurrence → Bool
  | .took success => success
  | occurrence => occurrence.captures

end Occurrence

/-- A pause is requested after a history if the latest of its arms, disarms, successful takes and
captures is an arm. -/
def Requested (history : List Occurrence) : Prop :=
  (history.filterMap Occurrence.effect?).getLast? = some true

variable {armed after : Bool} {history past future : List Occurrence} {occurrence : Occurrence}

theorem runs_append_iff :
    Runs armed (past ++ future) after ↔
      ∃ between, Runs armed past between ∧ Runs between future after := by
  induction past generalizing armed with
  | nil =>
      constructor
      · exact fun runs => ⟨armed, .nil, runs⟩
      · rintro ⟨between, runs, rest⟩
        cases runs
        exact rest
  | cons first past ih =>
      constructor
      · intro runs
        cases runs with
        | cons admits runs =>
            obtain ⟨between, before, rest⟩ := ih.mp runs
            exact ⟨between, .cons admits before, rest⟩
      · rintro ⟨between, runs, rest⟩
        cases runs with
        | cons admits before => exact .cons admits (ih.mpr ⟨between, before, rest⟩)

/-- What stands in the middle of a history could occur there. -/
theorem Runs.admits (runs : Runs armed (past ++ occurrence :: future) after) :
    ∃ before between, Runs armed past before ∧ Admits before occurrence between ∧
      Runs between future after := by
  obtain ⟨before, runs, rest⟩ := runs_append_iff.mp runs
  cases rest with
  | cons admits rest => exact ⟨before, _, runs, admits, rest⟩

/-- An occurrence with an effect settles whether the signal is armed, and any other leaves it as it
was. -/
theorem Admits.after_eq (admits : Admits armed occurrence after) :
    after = occurrence.effect?.getD armed := by
  cases admits with
  | takes => cases armed <;> rfl
  | @passes _ consulted turn _ goesOn =>
      cases turn with
      | going next => rfl
      | ended outcome =>
          cases outcome with
          | completed | faulted => rfl
          | paused snapshot => cases goesOn
  | _ => rfl

/-- The latest effect in a history tells whether the signal is armed. -/
theorem Runs.after_eq (runs : Runs armed history after) :
    after = (history.filterMap Occurrence.effect?).getLast?.getD armed := by
  induction runs with
  | nil => rfl
  | @cons armed between after occurrence history admits runs ih =>
      rw [ih, admits.after_eq]
      cases effect : occurrence.effect? with
      | none => rw [List.filterMap_cons_none effect]; rfl
      | some settled =>
          rw [List.filterMap_cons_some effect, List.getLast?_cons]
          rfl

/-- From a clear signal on, the signal is armed exactly if a pause is requested. -/
theorem Runs.after_iff (runs : Runs false history after) :
    after = true ↔ Requested history := by
  rw [runs.after_eq, Requested]
  cases (history.filterMap Occurrence.effect?).getLast? <;> simp

/-- An observation needs an armed signal and leaves a clear one. -/
theorem Admits.of_observes (admits : Admits armed occurrence after)
    (observes : occurrence.observes = true) : armed = true ∧ after = false := by
  cases admits with
  | takes =>
      cases armed with
      | false => cases observes
      | true => exact ⟨rfl, rfl⟩
  | captures => exact ⟨rfl, rfl⟩
  | passes _ goesOn => simp [Occurrence.observes, goesOn] at observes
  | _ => cases observes

theorem Admits.clear (admits : Admits false occurrence after) (other : occurrence ≠ .armed) :
    after = false ∧ occurrence.observes = false := by
  constructor
  · cases admits with
    | arms => contradiction
    | _ => rfl
  · rw [← Bool.not_eq_true]
    intro observes
    exact absurd (admits.of_observes observes).1 Bool.false_ne_true

/-- Without an arm a clear signal stays clear, and nothing is observed. -/
theorem Runs.clear (runs : Runs false history after) (unarmed : .armed ∉ history) :
    after = false ∧ ∀ occurrence ∈ history, occurrence.observes = false := by
  induction history with
  | nil =>
      cases runs
      exact ⟨rfl, by simp⟩
  | cons first history ih =>
      cases runs with
      | cons admits runs =>
          obtain ⟨other, unarmed⟩ := not_or.mp (mt List.mem_cons.mpr unarmed)
          obtain ⟨rfl, unobserved⟩ := admits.clear (Ne.symm other)
          obtain ⟨clear, quiet⟩ := ih runs unarmed
          exact ⟨clear, List.forall_mem_cons.mpr ⟨unobserved, quiet⟩⟩

/-- An occurrence observes no more than it arms, if an armed signal counts as an arm to come. -/
theorem Admits.balance (admits : Admits armed occurrence after) :
    (if occurrence.observes then 1 else 0) + after.toNat ≤
      (if occurrence == .armed then 1 else 0) + armed.toNat := by
  cases admits with
  | arms => exact Nat.le_add_right 1 _
  | takes => cases armed <;> decide
  | captures => exact Nat.le_refl 1
  | passes _ goesOn => simp [Occurrence.observes, goesOn]
  | _ => simp [Occurrence.observes, Occurrence.captures]

/-- A history observes no more than it arms. -/
theorem Runs.balance (runs : Runs armed history after) :
    history.countP Occurrence.observes + after.toNat ≤ history.count .armed + armed.toNat := by
  induction runs with
  | nil => exact Nat.le_refl _
  | cons admits runs ih =>
      have first := admits.balance
      rw [List.countP_cons, List.count_cons]
      omega

section History

variable {success : Bool} {turn : Turn} {middle : List Occurrence} {second : Occurrence}

theorem Runs.took_iff (runs : Runs false (past ++ .took success :: future) after) :
    success = true ↔ Requested past := by
  obtain ⟨before, between, runsPast, admits, -⟩ := runs.admits
  cases admits with
  | takes => exact runsPast.after_iff

theorem Runs.paused_iff (runs : Runs false (past ++ .turned true turn :: future) after) :
    (∃ snapshot, turn = .ended (.paused snapshot)) ↔ Requested past := by
  obtain ⟨before, between, runsPast, admits, -⟩ := runs.admits
  rw [← runsPast.after_iff]
  cases admits with
  | captures => simp
  | passes unseen goesOn =>
      rw [Bool.true_and] at unseen
      rw [unseen]
      constructor
      · rintro ⟨snapshot, rfl⟩
        cases goesOn
      · intro armed
        contradiction

theorem Runs.not_paused (runs : Runs armed (past ++ .turned false turn :: future) after)
    (snapshot : Snapshot) : turn ≠ .ended (.paused snapshot) := by
  rintro rfl
  obtain ⟨before, between, -, admits, -⟩ := runs.admits
  cases admits with
  | passes _ goesOn => cases goesOn

/-- After an observation and without a further arm the signal is clear, and nothing more is
observed. -/
theorem Runs.clear_of_observes (runs : Runs armed (past ++ occurrence :: future) after)
    (observes : occurrence.observes = true) (unarmed : .armed ∉ future) :
    after = false ∧ ∀ later ∈ future, later.observes = false := by
  obtain ⟨before, between, -, admits, rest⟩ := runs.admits
  obtain ⟨-, rfl⟩ := admits.of_observes observes
  exact rest.clear unarmed

theorem Runs.armed_between
    (runs : Runs armed (past ++ occurrence :: (middle ++ second :: future)) after)
    (first_observes : occurrence.observes = true) (second_observes : second.observes = true) :
    .armed ∈ middle := by
  apply Decidable.byContradiction
  intro unarmed
  have shorter : ∃ between, Runs armed (past ++ occurrence :: middle) between ∧
      Runs between (second :: future) after := by
    rw [← runs_append_iff, List.append_assoc]
    exact runs
  obtain ⟨between, runs, rest⟩ := shorter
  obtain ⟨rfl, -⟩ := runs.clear_of_observes first_observes unarmed
  cases rest with
  | cons admits rest => exact absurd (admits.of_observes second_observes).1 Bool.false_ne_true

end History

/-- The history that led to a scene observes every arm at most once. -/
structure ObservesOnce (history : List Occurrence) (scene : Sharing) : Prop where
  /-- A take succeeds exactly if a pause is requested. -/
  takes : ∀ past success future, history = past ++ .took success :: future →
    (success = true ↔ Requested past)
  /-- An invocation that consults the signal pauses exactly if a pause is requested. -/
  consults : ∀ past turn future, history = past ++ .turned true turn :: future →
    ((∃ snapshot, turn = .ended (.paused snapshot)) ↔ Requested past)
  /-- An invocation that does not consult the signal does not pause. -/
  ignores : ∀ past turn future, history = past ++ .turned false turn :: future →
    ∀ snapshot, turn ≠ .ended (.paused snapshot)
  /-- Through every handle one sees whether a pause is requested. -/
  signals : ∀ handle signal, scene.board.signal? handle = some signal →
    (signal.armed = true ↔ Requested history)
  /-- Between two captures or successful takes there is an arm. -/
  between : ∀ past first middle second future,
    history = past ++ first :: (middle ++ second :: future) →
    first.observes = true → second.observes = true → .armed ∈ middle
  /-- After a capture or a successful take the signal is clear, and nothing more is observed, until
  the next arm. -/
  clear : ∀ past observed future, history = past ++ observed :: future →
    observed.observes = true → .armed ∉ future →
    (∀ handle signal, scene.board.signal? handle = some signal → signal.armed = false) ∧
      ∀ occurrence ∈ future, occurrence.observes = false
  /-- There are no more captures and successful takes than arms. -/
  count : history.countP Occurrence.observes ≤ history.count .armed
  /-- What could not begin consumed no arm: without it, all else would have happened in the same way
  and led to the same scene. -/
  refusals : ∀ past fault future, history = past ++ .refused fault :: future →
    ∃ acts, start.follow acts = some (past ++ future, scene)
  /-- A call or a resumption that is played to its end under a schedule goes on with such a history,
  which its outcome ends, and leaves the signal as this history says. -/
  plays : ∀ engine handle signal begun arms fuel outcome left,
    scene.board.signal? handle = some signal → Begins engine begun →
    engine.play arms fuel signal begun = some (outcome, left) →
    ∃ acts more occurrence last,
      start.follow acts = some (history ++ (more ++ [occurrence]), last) ∧
      occurrence.outcome? = some outcome ∧
      (left.armed = true ↔ Requested (history ++ (more ++ [occurrence])))

/-- Whatever is done with a signal and the invocations that share it, every arm is observed at most
once. -/
theorem captures_once_per_arm {acts : List Act} {history : List Occurrence} {scene : Sharing}
    (followed : start.follow acts = some (history, scene)) : ObservesOnce history scene := by
  obtain ⟨after, single, runs⟩ := runs_of_follow Signal.Board.single_create followed
  have signal_eq : ∀ handle signal, scene.board.signal? handle = some signal →
      signal.armed = after := by
    intro handle signal found
    rw [single.signal_eq found]
  constructor
  case takes =>
    rintro past success future rfl
    exact runs.took_iff
  case consults =>
    rintro past turn future rfl
    exact runs.paused_iff
  case ignores =>
    rintro past turn future rfl
    exact runs.not_paused
  case signals =>
    intro handle signal found
    rw [signal_eq handle signal found]
    exact runs.after_iff
  case between =>
    rintro past first middle second future rfl
    exact runs.armed_between
  case clear =>
    rintro past observed future rfl observes unarmed
    obtain ⟨rfl, quiet⟩ := runs.clear_of_observes observes unarmed
    exact ⟨signal_eq, quiet⟩
  case count =>
    have balance := runs.balance
    rw [Bool.toNat_false, Nat.add_zero] at balance
    exact Nat.le_trans (Nat.le_add_right _ _) balance
  case refusals =>
    rintro past fault future rfl
    exact exists_follow_without followed
  case plays =>
    intro engine handle signal begun arms fuel outcome left found begins played
    obtain rfl := single.signal_eq found
    have stands : scene.Stands after handle scene.runs := ⟨single, single.handle_eq found, rfl⟩
    obtain ⟨more_acts, more, occurrence, last, follows, isOutcome, ends⟩ :=
      stands.exists_follow_of_play begins played
    have whole := follow_append followed follows
    obtain ⟨armed, single_last, runs_whole⟩ :=
      runs_of_follow Signal.Board.single_create whole
    obtain rfl := ends.single.unique single_last
    exact ⟨_, more, occurrence, last, whole, isOutcome, runs_whole.after_iff⟩

/-- Two arms before a call give one capture; the take after it fails, a call without arguments is
refused, and the next arm gives the second capture. -/
theorem captures_once_per_arm_fib :
    ∃ history scene,
      start.follow [.arm 0, .clone 0, .arm 1, .call ⟨Program.fib.module, 10000⟩ 1 0 [9], .turn 0,
        .take 0, .call ⟨Program.fib.module, 10000⟩ 0 0 [], .arm 1,
        .resume ⟨Program.fib.module, 10000⟩ 0 ⟨true, [⟨0, 0, [9], []⟩], 0⟩, .turn 0, .turn 0] =
          some (history, scene) ∧
      history.countP Occurrence.observes = 2 ∧ history.count .armed = 3 ∧
      ObservesOnce history scene := by
  have course : ∃ history scene,
      start.follow [.arm 0, .clone 0, .arm 1, .call ⟨Program.fib.module, 10000⟩ 1 0 [9], .turn 0,
        .take 0, .call ⟨Program.fib.module, 10000⟩ 0 0 [], .arm 1,
        .resume ⟨Program.fib.module, 10000⟩ 0 ⟨true, [⟨0, 0, [9], []⟩], 0⟩, .turn 0, .turn 0] =
          some (history, scene) ∧
      history.countP Occurrence.observes = 2 ∧ history.count .armed = 3 :=
    ⟨_, _, rfl, rfl, rfl⟩
  obtain ⟨history, scene, followed, observed, armed⟩ := course
  exact ⟨history, scene, followed, observed, armed, captures_once_per_arm followed⟩

end Ferry.Sharing
