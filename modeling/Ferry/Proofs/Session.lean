import Ferry.Proofs.Except
import Ferry.Session.Basic

/-!
# What the operations of a session do

An operation succeeds exactly if the edge that it needs leads from the phase of the session. No edge
leads to the idle phase, and none leads from a terminal one.
-/

namespace Ferry

namespace Phase

theorem mayBecome_ne_idle {before after : Phase} (edge : before.mayBecome after = true) :
    after ≠ .idle := by
  rintro rfl
  cases before <;> contradiction

/-- A computation is received in the idle phase, and after it was handed over. A paused phase would
allow it for a snapshot only. -/
theorem mayBecome_phaseOnReceipt_iff (phase : Phase) (snapshot : Option Snapshot) :
    phase.mayBecome (Session.phaseOnReceipt snapshot) = true ↔
      phase = .idle ∨ phase = .transmitted ∨ phase = .paused ∧ snapshot.isSome = true := by
  cases snapshot <;> cases phase <;> simp [Session.phaseOnReceipt, mayBecome]

theorem ne_idle_of_isActive {phase : Phase} (active : phase.isActive = true) : phase ≠ .idle := by
  rintro rfl
  contradiction

theorem isActive_phaseOnReceipt (snapshot : Option Snapshot) :
    (Session.phaseOnReceipt snapshot).isActive = true := by
  cases snapshot <;> rfl

theorem not_mayBecome_of_isActive {phase : Phase} (active : phase.isActive = true)
    (snapshot : Option Snapshot) :
    phase.mayBecome (Session.phaseOnReceipt snapshot) = false := by
  cases snapshot <;> cases phase <;> first | rfl | contradiction

/-- Where a computation can be received, none is active and none has ended. -/
theorem resting_of_mayBecome {phase : Phase} {snapshot : Option Snapshot}
    (edge : phase.mayBecome (Session.phaseOnReceipt snapshot) = true) :
    phase.isActive = false ∧ phase.isTerminal = false := by
  rcases (mayBecome_phaseOnReceipt_iff _ _).mp edge with rfl | rfl | ⟨rfl, -⟩ <;> decide

theorem mayBecome_completed_iff (phase : Phase) :
    phase.mayBecome .completed = true ↔ phase.isActive = true := by
  cases phase <;> simp [mayBecome, isActive]

theorem mayBecome_paused_iff (phase : Phase) :
    phase.mayBecome .paused = true ↔ phase.isActive = true := by
  cases phase <;> simp [mayBecome, isActive]

/-- No edge leads from a phase in which nothing further can happen. -/
theorem not_mayBecome_of_isTerminal {phase : Phase} (terminal : phase.isTerminal = true)
    (next : Phase) : phase.mayBecome next = false := by
  cases phase <;> first | rfl | contradiction

end Phase

namespace Session

variable {session moved : Session}

theorem moveTo_eq_ok_iff {next : Phase} :
    session.moveTo next = .ok moved ↔
      session.phase.mayBecome next = true ∧ moved = { session with phase := next } := by
  by_cases edge : session.phase.mayBecome next = true
  · simp [moveTo, edge, eq_comm]
  · simp [moveTo, edge]

theorem moveTo_eq_error {next : Phase} {failure : Failure}
    (refused : session.moveTo next = .error failure) :
    session.phase.mayBecome next = false ∧
      failure = .invalidState session.phase.text next.text := by
  by_cases edge : session.phase.mayBecome next = true
  · simp [moveTo, edge] at refused
  · simp only [moveTo, edge, Bool.false_eq_true, if_false, Except.error.injEq] at refused
    exact ⟨Bool.eq_false_iff.mpr edge, refused.symm⟩

theorem pause_eq_ok_iff {snapshot : Snapshot} :
    session.pause snapshot = .ok moved ↔
      session.phase.mayBecome .paused = true ∧
        moved = { session with phase := .paused, pending := some snapshot } := by
  rw [pause, bind_eq_ok_iff]
  constructor
  · rintro ⟨paused, isPaused, kept⟩
    rcases moveTo_eq_ok_iff.mp isPaused with ⟨edge, rfl⟩
    cases kept
    exact ⟨edge, rfl⟩
  · rintro ⟨edge, rfl⟩
    exact ⟨_, moveTo_eq_ok_iff.mpr ⟨edge, rfl⟩, rfl⟩

theorem receive_eq_ok_iff {id : SessionId} {snapshot : Option Snapshot} :
    session.receive id snapshot = .ok moved ↔
      session.phase.mayBecome (phaseOnReceipt snapshot) = true ∧
        moved = { session with phase := phaseOnReceipt snapshot, id, received := snapshot } := by
  rw [receive, bind_eq_ok_iff]
  constructor
  · rintro ⟨entered, isEntered, kept⟩
    rcases moveTo_eq_ok_iff.mp isEntered with ⟨edge, rfl⟩
    cases kept
    exact ⟨edge, rfl⟩
  · rintro ⟨edge, rfl⟩
    exact ⟨_, moveTo_eq_ok_iff.mpr ⟨edge, rfl⟩, rfl⟩

/-! Without an edge nothing is done. -/

theorem moveTo_of_noEdge {next : Phase} (noEdge : session.phase.mayBecome next = false) :
    session.moveTo next = .error (.invalidState session.phase.text next.text) := by
  rw [moveTo, noEdge]
  rfl

theorem pause_of_noEdge (snapshot : Snapshot) (noEdge : session.phase.mayBecome .paused = false) :
    session.pause snapshot = .error (.invalidState session.phase.text Phase.paused.text) := by
  rw [pause, moveTo_of_noEdge noEdge]
  rfl

theorem receive_of_noEdge (id : SessionId) {snapshot : Option Snapshot}
    (noEdge : session.phase.mayBecome (phaseOnReceipt snapshot) = false) :
    session.receive id snapshot =
      .error (.invalidState session.phase.text (phaseOnReceipt snapshot).text) := by
  rw [receive, moveTo_of_noEdge noEdge]
  rfl

end Session

end Ferry
