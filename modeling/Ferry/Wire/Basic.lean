import Ferry.Wire.Varint
import Ferry.Word

/-!
# The wire form of values

Each type that travels has a wire form: a writer and a reader. Values follow each other without
separators or tags. Truth values and optional values begin with a zero or a one, numbers have
variable length, and sequences and texts begin with their length.
-/

namespace Ferry

/-- Types whose values can be written as bytes and read back. -/
class Wire (α : Type) where
  /-- The bytes of a value. -/
  write : α → Bytes
  /-- Takes one value from the front of the input. -/
  read : Wire.Reader α

namespace Wire

/-- Why a byte sequence as a whole is not the wire form of one value. -/
inductive DecodeError where
  /-- No value can be read from the front. -/
  | malformed (cause : Malformation)
  /-- Bytes are left over after the value. -/
  | trailing (count : Nat)
  deriving DecidableEq, Repr

/-- Reads a byte sequence that is exactly one value. -/
def decode {α : Type} [Wire α] (bytes : Bytes) : Except DecodeError α :=
  match Wire.read (α := α) bytes with
  | .error cause => .error (.malformed cause)
  | .ok (value, []) => .ok value
  | .ok (_, rest) => .error (.trailing rest.length)

/-- Applies a function to the value that a reader gives. -/
def Reader.map {α β : Type} (f : α → β) (read : Reader α) : Reader β := fun input =>
  match read input with
  | .ok (value, rest) => .ok (f value, rest)
  | .error cause => .error cause

/-- Reads one value and then another that may depend on it. -/
def Reader.andThen {α β : Type} (read : Reader α) (next : α → Reader β) : Reader β := fun input =>
  match read input with
  | .ok (value, rest) => next value rest
  | .error cause => .error cause

/-- Reads the given number of values, one after the other; `taken` holds those already read, last
one first. -/
def Reader.timesOnto {α : Type} (read : Reader α) : Nat → List α → Reader (List α)
  | 0, taken, input => .ok (taken.reverse, input)
  | count + 1, taken, input =>
      match read input with
      | .ok (value, rest) => timesOnto read count (value :: taken) rest
      | .error cause => .error cause

/-- Reads the given number of values, one after the other. -/
def Reader.times {α : Type} (read : Reader α) (count : Nat) : Reader (List α) :=
  read.timesOnto count []

/-- Reads the given number of raw bytes. -/
def takeBytes (count : Nat) : Reader Bytes := fun input =>
  if input.length < count then .error .endOfInput
  else .ok (input.take count, input.drop count)

instance : Wire Bool where
  write b := [if b then 1 else 0]
  read
    | [] => .error .endOfInput
    | b :: rest =>
        if b = 0 then .ok (false, rest)
        else if b = 1 then .ok (true, rest)
        else .error .notBool

instance : Wire UInt8 where
  write b := [b]
  read
    | [] => .error .endOfInput
    | b :: rest => .ok (b, rest)

instance : Wire UInt32 where
  write n := writeNumber n.toNat
  read := Reader.map UInt32.ofNat (readNumber .short)

/-- Reads a length or another number of 64 bits. -/
def readLength : Reader Nat := readNumber .long

/-- Folds the sign of a word into its lowest bit, so that words near zero are short. -/
def zigzag (w : Word) : Nat :=
  if 0 ≤ w.toInt then 2 * w.toInt.natAbs else 2 * w.toInt.natAbs - 1

/-- The word whose sign is folded into the lowest bit of `n`. -/
def unzigzag (n : Nat) : Word :=
  if n % 2 = 0 then Int64.ofInt (n / 2) else Int64.ofInt (-(n / 2) - 1)

instance : Wire Word where
  write w := writeNumber (zigzag w)
  read := Reader.map unzigzag (readNumber .long)

instance {α : Type} [Wire α] : Wire (List α) where
  write values := writeNumber values.length ++ values.flatMap Wire.write
  read := readLength.andThen (Wire.read (α := α)).times

instance {α : Type} [Wire α] : Wire (Option α) where
  write
    | none => [0]
    | some value => 1 :: Wire.write value
  read
    | [] => .error .endOfInput
    | b :: rest =>
        if b = 0 then .ok (none, rest)
        else if b = 1 then Reader.map some Wire.read rest
        else .error .notOption

instance : Wire String where
  write text := writeNumber (Bytes.ofText text).length ++ Bytes.ofText text
  read := (readLength.andThen takeBytes).andThen fun bytes rest =>
    match Bytes.text? bytes with
    | some text => .ok (text, rest)
    | none => .error .notText

end Wire

end Ferry
