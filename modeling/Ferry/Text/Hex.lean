import Ferry.Bytes
import Ferry.Text.Quoted

/-!
# Bytes as hexadecimal digits

Every byte is two digits, the high half first. Writing uses lower-case letters; reading takes both
cases.
-/

namespace Ferry.Text

/-- The two digits of a byte. -/
def hexByte (b : UInt8) : List Char :=
  [hexDigit (b.toNat / 16), hexDigit (b.toNat % 16)]

/-- Two digits for each byte, in order. -/
def hex (bytes : Bytes) : String := String.ofList (bytes.flatMap hexByte)

/-- The value of a hexadecimal digit of either case. -/
def hexValue? (c : Char) : Option Nat :=
  if '0' ≤ c ∧ c ≤ '9' then some (c.toNat - '0'.toNat)
  else if 'a' ≤ c ∧ c ≤ 'f' then some (c.toNat - 'a'.toNat + 10)
  else if 'A' ≤ c ∧ c ≤ 'F' then some (c.toNat - 'A'.toNat + 10)
  else none

/-- The bytes that pairs of digits spell, or `none` if a character is left over or no digit. -/
def bytesOfHex? : List Char → Option Bytes
  | [] => some []
  | [_] => none
  | high :: low :: rest => do
      let h ← hexValue? high
      let l ← hexValue? low
      let bytes ← bytesOfHex? rest
      pure (UInt8.ofNat (16 * h + l) :: bytes)

end Ferry.Text
