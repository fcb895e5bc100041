import Ferry.Bytes

/-!
# Numbers of variable length

A number is written in groups of seven bits, lowest group first, one group to a byte; the high bit
of a byte says that another group follows. A width allows a fixed number of groups and bounds the
last of them. Writing never pads; reading accepts padding by zero groups within the width.
-/

namespace Ferry.Wire

/-- Why bytes do not spell a value. -/
inductive Malformation where
  /-- The bytes end inside the value. -/
  | endOfInput
  /-- A number has more groups, or a larger last group, than its width allows. -/
  | unterminatedNumber
  /-- A truth value is neither zero nor one. -/
  | notBool
  /-- The mark of an optional value is neither zero nor one. -/
  | notOption
  /-- A text is not valid UTF-8. -/
  | notText
  /-- A value of fixed size announces another length. -/
  | wrongSize
  deriving DecidableEq, Repr

namespace Malformation

/-- The description of a malformation. -/
def message : Malformation → String
  | endOfInput => "Hit the end of buffer, expected more data"
  | unterminatedNumber =>
      "Found a varint that didn't terminate. Is the usize too big for this platform?"
  | notBool => "Found a bool that wasn't 0 or 1"
  | notOption => "Found an Option discriminant that wasn't 0 or 1"
  | notText => "Tried to parse invalid utf-8"
  | wrongSize => "Serde Deserialization Error"

end Malformation

/-- A reader takes a value from the front of its input and leaves the rest, or says what is wrong
at the first offending byte. -/
abbrev Reader (α : Type) := Bytes → Except Malformation (α × Bytes)

/-- The size of a number's longest form: how many groups it may have and how large the last may
be. -/
structure Width where
  groups : Nat
  lastGroup : Nat
  deriving DecidableEq, Repr

namespace Width

/-- Five groups, of which the last holds the upper four of 32 bits. -/
def short : Width := ⟨5, 15⟩

/-- Ten groups, of which the last holds the uppermost of 64 bits. -/
def long : Width := ⟨10, 1⟩

end Width

/-- The groups of a number, lowest first, as few as possible. -/
def writeNumber (n : Nat) : Bytes :=
  if n < 128 then [UInt8.ofNat n]
  else UInt8.ofNat (n % 128 + 128) :: writeNumber (n / 128)

/-- Reads the groups of one number, of which at most `groups` may follow. -/
def readGroups (lastGroup : Nat) : (groups : Nat) → Reader Nat
  | 0, _ => .error .unterminatedNumber
  | _ + 1, [] => .error .endOfInput
  | groups + 1, b :: rest =>
      if b.toNat < 128 then
        if groups = 0 ∧ lastGroup < b.toNat then .error .unterminatedNumber
        else .ok (b.toNat, rest)
      else
        match readGroups lastGroup groups rest with
        | .ok (n, rest) => .ok (b.toNat - 128 + 128 * n, rest)
        | .error e => .error e

/-- Reads a number of the given width. -/
def readNumber (width : Width) : Reader Nat := readGroups width.lastGroup width.groups

end Ferry.Wire
