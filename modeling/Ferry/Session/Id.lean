import Ferry.FixedBytes
import Ferry.Text.Hex

/-!
# Session ids

A session id is 16 bytes. Its text is a mark followed by 32 hexadecimal digits in five groups of
8, 4, 4, 4 and 12, with hyphens between the groups. Other forms can be read too: the mark may be
missing, the hyphens may be missing, and the hyphenated digits may stand in braces or after a
resource name. Digits of both cases are read; lower case is written.
-/

namespace Ferry

/-- The id that two peers share for one computation. -/
abbrev SessionId := FixedBytes 16

namespace SessionId

/-- On the wire an id is a byte sequence with its length, which must be 16. -/
instance : Wire SessionId where
  write id := Wire.writeNumber 16 ++ id.bytes
  read := Wire.readLength.andThen fun length =>
    (Wire.takeBytes length).andThen fun bytes rest =>
      match FixedBytes.ofBytes? 16 bytes with
      | some id => .ok (id, rest)
      | none => .error .wrongSize

/-- The id that random bytes make. A few bits are fixed: those that say that it is random. -/
def ofRandom (random : FixedBytes 16) : SessionId where
  bytes := random.bytes.mapIdx fun index b =>
    if index = 6 then (b &&& 0x0F) ||| 0x40
    else if index = 8 then (b &&& 0x3F) ||| 0x80
    else b
  length_eq := by simp [random.length_eq]

/-- The lengths of the groups of digits. -/
def groups : List Nat := [8, 4, 4, 4, 12]

/-- Cuts digits into groups of given lengths and puts a hyphen before each of them. -/
def hyphenate : List Nat → List Char → List Char
  | [], _ => []
  | length :: rest, digits => '-' :: digits.take length ++ hyphenate rest (digits.drop length)

/-- Takes groups of given lengths, with a hyphen before each of them, and joins them; nothing may be
left over. -/
def unhyphenate? : List Nat → List Char → Option (List Char)
  | [], [] => some []
  | [], _ :: _ => none
  | length :: rest, text =>
      match text with
      | '-' :: digits => (unhyphenate? rest (digits.drop length)).map (digits.take length ++ ·)
      | _ => none

/-- The digits of an id. -/
def digits (id : SessionId) : List Char := id.bytes.flatMap Text.hexByte

/-- The digits of an id in hyphenated groups. -/
def grouped (id : SessionId) : List Char := (hyphenate groups id.digits).drop 1

/-- The mark before the digits. -/
def mark : List Char := "session_".toList

/-- The text of an id. -/
def text (id : SessionId) : String := String.ofList (mark ++ id.grouped)

/-- The id that 32 digits spell. -/
def ofDigits? (digits : List Char) : Option SessionId :=
  (Text.bytesOfHex? digits).bind (FixedBytes.ofBytes? 16)

/-- The id that hyphenated groups of digits spell. -/
def ofGrouped? (text : List Char) : Option SessionId :=
  (unhyphenate? groups ('-' :: text)).bind ofDigits?

/-- The resource name under which hyphenated digits may stand, in lower case. -/
def resourceName : List Char := "urn:uuid:".toList

/-- What stands between braces. -/
def braced? (text : List Char) : Option (List Char) :=
  match text with
  | '\x7b' :: inner => if inner.getLast? = some '\x7d' then some inner.dropLast else none
  | _ => none

/-- What stands after the resource name, in whatever case that is written. -/
def named? (text : List Char) : Option (List Char) :=
  if (text.take resourceName.length).map Char.toLower = resourceName then
    some (text.drop resourceName.length)
  else none

/-- The id that a text without a mark spells: bare digits, or hyphenated ones alone, in braces or
after the resource name. -/
def ofUnmarked? (text : List Char) : Option SessionId :=
  (ofDigits? text).or <| (ofGrouped? text).or <|
    ((braced? text).bind ofGrouped?).or ((named? text).bind ofGrouped?)

/-- The id that a text spells. One mark at its front is passed over. -/
def ofText? (text : String) : Option SessionId :=
  let characters := text.toList
  ofUnmarked? (if mark.isPrefixOf characters then characters.drop mark.length else characters)

end SessionId

end Ferry
