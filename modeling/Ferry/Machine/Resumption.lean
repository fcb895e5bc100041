import Ferry.Machine.Step

/-!
# Resumptions

A snapshot that comes from outside is not trusted. It is first judged against the number of
functions of a module, which gives a resumption; then each of its frames is judged against its
function, outermost first, and only then is there a machine to go on with.
-/

namespace Ferry

/-- Why a snapshot cannot be resumed with a module. -/
inductive Refusal where
  /-- The snapshot asks for a fresh start. -/
  | notValid
  | noFrames
  /-- The outermost frame belongs to another function than the one that was called. -/
  | entryMismatch (entry found : UInt32)
  /-- A frame, counted from the innermost, belongs to no function of the module. -/
  | unknownFunction (position : Nat) (function : UInt32) (count : Nat)
  deriving DecidableEq, Repr

/-- The description of a refusal. -/
def Refusal.message : Refusal → String
  | notValid => "snapshot is not valid"
  | noFrames => "snapshot has no frames"
  | entryMismatch entry found =>
      s!"outermost frame runs {functionText found}, snapshot entry is {functionText entry}"
  | unknownFunction position function count =>
      s!"frame {position} references {functionText function} but the module has {count} functions"

/-- Frames from which a machine can be rebuilt. -/
structure Resumption where
  /-- The function through which the computation was called. -/
  entry : UInt32
  /-- The frame that goes on. -/
  innermost : Frame
  /-- The frames that wait for a return, innermost first. -/
  callers : List Frame
  deriving DecidableEq, Repr

namespace Resumption

/-- The frames of a resumption, innermost first. -/
def frames (resumption : Resumption) : List Frame := resumption.innermost :: resumption.callers

/-- The number of frames. -/
def depth (resumption : Resumption) : Nat := resumption.frames.length

/-- The first frame, counted from `position`, that belongs to none of `count` functions. -/
def stranger? (count : Nat) : (position : Nat) → List Frame → Option Refusal
  | _, [] => none
  | position, frame :: rest =>
      if count ≤ frame.functionIndex.toNat then
        some (.unknownFunction position frame.functionIndex count)
      else stranger? count (position + 1) rest

/-- Judges a snapshot against a module with `count` functions. -/
def ofSnapshot? (snapshot : Snapshot) (count : Nat) : Except Refusal Resumption :=
  if ¬ snapshot.valid then .error .notValid
  else
    match snapshot.frames with
    | [] => .error .noFrames
    | innermost :: callers =>
        let outermost := (innermost :: callers).getLast (List.cons_ne_nil _ _)
        if outermost.functionIndex ≠ snapshot.entry then
          .error (.entryMismatch snapshot.entry outermost.functionIndex)
        else
          match stranger? count 0 (innermost :: callers) with
          | some refusal => .error refusal
          | none => .ok ⟨snapshot.entry, innermost, callers⟩

/-- Why a frame does not fit its function. -/
def misfit? (module : Module) (frame : Frame) : Option Trap :=
  match module.function? frame.functionIndex with
  | none => some (.unknownFunction frame.functionIndex)
  | some function =>
      if frame.locals.length ≠ function.locals.toNat then
        some (.corruptFrame (s!"{function.name} has {function.locals.toNat} locals, " ++
          s!"frame carries {frame.locals.length}"))
      else if function.code.size ≤ frame.programCounter.toNat then
        some (.pcOutOfRange frame.programCounter.toNat)
      else none

/-- Rebuilds the machine, under a limit on live activations. -/
def machine (resumption : Resumption) (module : Module) (limit : Nat) : Except Trap Machine :=
  match resumption.frames.reverse.findSome? (misfit? module) with
  | some trap => .error trap
  | none =>
      if limit < resumption.depth then .error (.callDepthExceeded limit)
      else .ok {
        entry := resumption.entry
        top := .ofFrame resumption.innermost
        callers := resumption.callers.map .ofFrame }

end Resumption

end Ferry
