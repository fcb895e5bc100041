import Ferry.Wire.Basic

/-!
# Byte sequences of a fixed length

Checksums and session ids are byte sequences whose length is part of their type. Their raw wire
form is the bytes alone.
-/

namespace Ferry

/-- A byte sequence of length `n`. -/
structure FixedBytes (n : Nat) where
  bytes : Bytes
  length_eq : bytes.length = n
  deriving DecidableEq, Repr

namespace FixedBytes

variable {n : Nat}

@[ext]
theorem ext {left right : FixedBytes n} (h : left.bytes = right.bytes) : left = right := by
  cases left; cases right; cases h; rfl

/-- The bytes as a sequence of length `n`, if they are that many. -/
def ofBytes? (n : Nat) (bytes : Bytes) : Option (FixedBytes n) :=
  if h : bytes.length = n then some ⟨bytes, h⟩ else none

/-- Takes `n` raw bytes from the front of the input. -/
def readRaw (n : Nat) : Wire.Reader (FixedBytes n) := fun input =>
  if h : n ≤ input.length then
    .ok (⟨input.take n, by simp [List.length_take, Nat.min_eq_left h]⟩, input.drop n)
  else .error .endOfInput

end FixedBytes

end Ferry
