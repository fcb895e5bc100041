import Ferry.Failure
import Ferry.Frame

/-!
# Snapshots

A snapshot is the call stack of a paused computation, innermost frame first. A snapshot that is
not valid stands for "nothing captured, start from the beginning". Well-formed snapshots are valid
exactly when they have frames; values that come from outside need not be well formed.
-/

namespace Ferry

/-- The call stack of a paused computation. -/
structure Snapshot where
  /-- Whether there is a computation to continue. -/
  valid : Bool
  /-- The frames, innermost first. -/
  frames : List Frame
  /-- The function through which the computation was called. -/
  entry : UInt32
  deriving DecidableEq, Repr

namespace Snapshot

/-- The snapshot that asks for a fresh start. -/
def fresh : Snapshot := ⟨false, [], 0⟩

instance : Inhabited Snapshot := ⟨fresh⟩

/-- What is wrong with the structure of a snapshot. -/
inductive Defect where
  /-- It is valid and has no frames. -/
  | withoutFrames
  /-- It is not valid and has frames. -/
  | strayFrames
  deriving DecidableEq, Repr

/-- The description of a defect. -/
def Defect.message : Defect → String
  | withoutFrames => "valid snapshot without frames"
  | strayFrames => "invalid snapshot carries frames"

/-- The defect of a snapshot, if it has one. -/
def defect? (snapshot : Snapshot) : Option Defect :=
  match snapshot.valid, snapshot.frames with
  | true, [] => some .withoutFrames
  | false, _ :: _ => some .strayFrames
  | _, _ => none

/-- A snapshot is well formed when it is valid exactly if it has frames. -/
def WellFormed (snapshot : Snapshot) : Prop :=
  snapshot.valid = true ↔ snapshot.frames ≠ []

theorem defect?_eq_none_iff (snapshot : Snapshot) :
    snapshot.defect? = none ↔ snapshot.WellFormed := by
  obtain ⟨valid, frames, entry⟩ := snapshot
  cases valid <;> cases frames <;> simp [defect?, WellFormed]

instance (snapshot : Snapshot) : Decidable snapshot.WellFormed :=
  decidable_of_iff _ snapshot.defect?_eq_none_iff

/-- Refuses a snapshot that is not well formed. -/
def check (snapshot : Snapshot) : Except Failure Unit :=
  match snapshot.defect? with
  | none => .ok ()
  | some defect => .error (.deserialization defect.message)

/-- The valid snapshot of frames given innermost first; refused if there are none. -/
def capture (frames : List Frame) (entry : UInt32) : Except Failure Snapshot :=
  if frames = [] then .error (.engineFault "cannot capture a snapshot without frames")
  else .ok ⟨true, frames, entry⟩

/-- The number of frames. -/
def depth (snapshot : Snapshot) : Nat := snapshot.frames.length

/-- The frame that was running when the snapshot was taken. -/
def innermost? (snapshot : Snapshot) : Option Frame := snapshot.frames.head?

/-- The frame of the function that was called first. -/
def outermost? (snapshot : Snapshot) : Option Frame := snapshot.frames.getLast?

end Snapshot

end Ferry
