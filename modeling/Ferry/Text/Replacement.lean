import Ferry.Bytes

/-!
# Reading damaged UTF-8

A reply may carry bytes that are not valid UTF-8. They are still shown: every maximal run of bytes
that begins an encoded character without completing it, and every byte that begins none, becomes
one replacement character.
-/

namespace Ferry.Text

/-- The character that stands for what cannot be decoded. -/
def replacement : Char := '\uFFFD'

/-- The continuation bytes that a leading byte calls for: the range of the first one and how many
come after it; `none` if the byte begins no encoded character of several bytes. -/
def continuation? (lead : UInt8) : Option ((UInt8 × UInt8) × Nat) :=
  if 0xC2 ≤ lead ∧ lead ≤ 0xDF then some ((0x80, 0xBF), 0)
  else if lead = 0xE0 then some ((0xA0, 0xBF), 1)
  else if lead = 0xED then some ((0x80, 0x9F), 1)
  else if 0xE1 ≤ lead ∧ lead ≤ 0xEF then some ((0x80, 0xBF), 1)
  else if lead = 0xF0 then some ((0x90, 0xBF), 2)
  else if 0xF1 ≤ lead ∧ lead ≤ 0xF3 then some ((0x80, 0xBF), 2)
  else if lead = 0xF4 then some ((0x80, 0x8F), 2)
  else none

/-- How many further bytes of `rest` belong to the character that `lead` begins, cut short at the
first byte that cannot continue it. -/
def continued (range : UInt8 × UInt8) : Nat → Bytes → Nat
  | _, [] => 0
  | 0, b :: _ => if range.1 ≤ b ∧ b ≤ range.2 then 1 else 0
  | more + 1, b :: rest =>
      if range.1 ≤ b ∧ b ≤ range.2 then 1 + continued (0x80, 0xBF) more rest else 0

/-- The first character of a nonempty sequence and the number of bytes after the first that it
takes up. -/
def headCharacter (lead : UInt8) (rest : Bytes) : Char × Nat :=
  if lead < 0x80 then (Char.ofNat lead.toNat, 0)
  else
    match continuation? lead with
    | none => (replacement, 0)
    | some (range, more) =>
        let taken := continued range more rest
        match Bytes.text? (lead :: rest.take taken) with
        | some text => (text.toList.headD replacement, taken)
        | none => (replacement, taken)

/-- The characters of a byte sequence, with replacement characters for what is not valid. -/
def decodeReplacing : Bytes → List Char
  | [] => []
  | lead :: rest =>
      let head := headCharacter lead rest
      head.1 :: decodeReplacing (rest.drop head.2)
  termination_by bytes => bytes.length
  decreasing_by simp only [List.length_drop, List.length_cons]; omega

end Ferry.Text
