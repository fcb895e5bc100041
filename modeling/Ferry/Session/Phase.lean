/-!
# Phases of a session

A session moves through phases along fixed edges: a run begins, ends or pauses; what is paused is
exported, handed over or resumed; what was handed over may come back.
-/

namespace Ferry

/-- Where a computation is between its start and its end. -/
inductive Phase where
  /-- Nothing has run yet. -/
  | idle
  /-- A fresh call runs. -/
  | running
  /-- A snapshot is being resumed. -/
  | resuming
  /-- A snapshot was captured. -/
  | paused
  /-- The computation returned its results. -/
  | completed
  /-- The captured snapshot was written to a file. -/
  | exported
  /-- The captured snapshot was handed to the peer. -/
  | transmitted
  deriving DecidableEq, Repr

namespace Phase

/-- The word for a phase. -/
def text : Phase → String
  | idle => "idle"
  | running => "running"
  | resuming => "resuming"
  | paused => "paused"
  | completed => "completed"
  | exported => "exported"
  | transmitted => "transmitted"

/-- All phases. -/
def all : List Phase := [idle, running, completed, paused, exported, transmitted, resuming]

/-- The phase that a word names. -/
def ofText? (text : String) : Option Phase := all.find? fun phase => phase.text == text

/-- Whether an edge leads from one phase to another. -/
def mayBecome : Phase → Phase → Bool
  | idle, running | idle, resuming
  | running, completed | running, paused
  | resuming, completed | resuming, paused
  | paused, exported | paused, transmitted | paused, resuming
  | transmitted, resuming | transmitted, running => true
  | _, _ => false

/-- Whether the engine works on the computation. -/
def isActive : Phase → Bool
  | running | resuming => true
  | _ => false

/-- Whether nothing further can happen in this process. -/
def isTerminal : Phase → Bool
  | completed | exported => true
  | _ => false

end Phase

end Ferry
