import Ferry.Failure
import Ferry.Snapshot.Basic

/-!
# Outcomes

An attempt to run a computation ends in one of three ways. A pause is an ordinary outcome: it
carries the snapshot from which the computation goes on elsewhere.
-/

namespace Ferry

/-- How an attempt to run a computation ended, with faults of type `φ`. -/
inductive Outcome (φ : Type) where
  /-- The entry function returned. -/
  | completed (results : List Word)
  /-- The computation paused at an instruction boundary. -/
  | paused (snapshot : Snapshot)
  /-- The computation cannot go on. -/
  | faulted (fault : φ)
  deriving DecidableEq, Repr

namespace Outcome

variable {φ : Type}

/-- A short name of the way the attempt ended. -/
def label : Outcome φ → String
  | completed _ => "completed"
  | paused _ => "paused"
  | faulted _ => "faulted"

/-- Whether the entry function returned. -/
def isCompleted : Outcome φ → Bool
  | completed _ => true
  | _ => false

/-- Whether the computation paused. -/
def isPaused : Outcome φ → Bool
  | paused _ => true
  | _ => false

/-- The results, if the entry function returned. -/
def results? : Outcome φ → Option (List Word)
  | completed results => some results
  | _ => none

/-- The snapshot, if the computation paused. -/
def snapshot? : Outcome φ → Option Snapshot
  | paused snapshot => some snapshot
  | _ => none

/-- The fault, if the computation cannot go on. -/
def fault? : Outcome φ → Option φ
  | faulted fault => some fault
  | _ => none

end Outcome

end Ferry
