import Ferry.Failure
import Ferry.Text.Quoted

/-!
# Modes of execution

A computation runs in this process only, or it may be handed to a peer.
-/

namespace Ferry

/-- Where a computation may run. -/
inductive Mode where
  /-- In this process only. -/
  | local
  /-- Here and at a peer. -/
  | remote
  deriving DecidableEq, Repr

namespace Mode

/-- The word for a mode. -/
def text : Mode → String
  | «local» => "local"
  | remote => "remote"

/-- The mode that a word names. -/
def ofText? (text : String) : Except Failure Mode :=
  if text = "local" then .ok .local
  else if text = "remote" then .ok .remote
  else .error (.configuration s!"mode must be either local or remote, got {Text.quoted text}")

end Mode

end Ferry
