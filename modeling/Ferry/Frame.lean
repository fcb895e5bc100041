import Ferry.Word

/-!
# Recorded frames

A frame is the part of one function activation that is needed to continue it. In the innermost
frame the program counter names the instruction that has not run yet; in every caller it is the
offset right after the call that the next frame answers.
-/

namespace Ferry

/-- The text of a function index. -/
def functionText (index : UInt32) : String := s!"fn#{index.toNat}"

/-- One recorded activation. -/
structure Frame where
  /-- The offset of an instruction in the function's body. -/
  programCounter : UInt32
  /-- The function that the frame belongs to. -/
  functionIndex : UInt32
  /-- The local slots, parameters first. -/
  locals : List Word := []
  /-- The operand stack, bottom first. -/
  operands : List Word := []
  deriving DecidableEq, Repr

/-- The function of a frame and the offset it stands at. -/
def Frame.text (frame : Frame) : String :=
  s!"Fn {frame.functionIndex.toNat}@{frame.programCounter.toNat}"

end Ferry
