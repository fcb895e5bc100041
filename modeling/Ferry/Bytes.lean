/-!
# Byte sequences

Everything that leaves the process, to a file or to a peer, is a list of bytes. Text leaves as its
UTF-8 encoding and comes back only from bytes that are valid UTF-8.
-/

namespace Ferry

/-- A sequence of bytes. -/
abbrev Bytes := List UInt8

namespace Bytes

/-- The UTF-8 encoding of a text. -/
def ofText (text : String) : Bytes := text.toUTF8.data.toList

/-- The text whose UTF-8 encoding the bytes are, if they are valid. -/
def text? (bytes : Bytes) : Option String := String.fromUTF8? ⟨bytes.toArray⟩

@[simp]
theorem text?_ofText (text : String) : text? (ofText text) = some text := by
  simp only [text?, ofText, Array.toArray_toList, String.fromUTF8?]
  exact dif_pos text.isValidUTF8

theorem eq_ofText_of_text? {bytes : Bytes} {text : String} (read : text? bytes = some text) :
    bytes = ofText text := by
  simp only [text?, String.fromUTF8?] at read
  split at read
  · cases read
    simp [ofText, String.fromUTF8, String.toUTF8]
  · contradiction

end Bytes

end Ferry
