import Ferry.Failure

/-!
# Trigger policies

A policy says when an invocation is asked to pause. At most one policy is active; a wait of no time
at all is refused.
-/

namespace Ferry

/-- When an invocation is asked to pause. -/
inductive Policy where
  /-- Never. -/
  | never
  /-- When the operator asks. -/
  | manual
  /-- Once, the given number of milliseconds after it began. -/
  | timeout (milliseconds : Nat)
  /-- From its beginning, so that it runs one instruction. -/
  | stepAll
  deriving DecidableEq, Repr

namespace Policy

/-- The text of a policy. -/
def text : Policy → String
  | never => "none"
  | manual => "manual"
  | timeout milliseconds => s!"timeout({milliseconds}ms)"
  | stepAll => "step-all"

/-- Whether invocations wait for the operator. -/
def isManual : Policy → Bool
  | manual => true
  | _ => false

/-- The choices of the operator. -/
structure Selection where
  manual : Bool := false
  /-- A wait in milliseconds. -/
  timeout : Option Nat := none
  stepAll : Bool := false
  deriving DecidableEq, Repr

/-- The policies that were chosen. -/
def Selection.chosen (selection : Selection) : List Policy :=
  (if selection.manual then [Policy.manual] else []) ++
    (selection.timeout.map Policy.timeout).toList ++
    (if selection.stepAll then [Policy.stepAll] else [])

/-- The policy of a selection. A wait of no time is refused before the choices are counted. -/
def ofSelection? (selection : Selection) : Except Failure Policy :=
  if selection.timeout = some 0 then
    .error (.configuration "snapshot timeout must be greater than zero")
  else
    match selection.chosen with
    | [] => .ok never
    | [policy] => .ok policy
    | several =>
        let names := " and ".intercalate (several.map text)
        .error (.configuration s!"only one trigger policy may be active, got {names}")

end Policy

end Ferry
