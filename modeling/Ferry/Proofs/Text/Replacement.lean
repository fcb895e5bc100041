import Ferry.Text.Replacement

/-!
# Undamaged UTF-8 is read as it was written

Every character is encoded as a leading byte and the continuation bytes that this byte calls for. So
reading an encoded text takes its characters one by one, and nothing is replaced.
-/

namespace Ferry.Text

/-- Bytes in the range of a first continuation byte and of further ones all belong to the
character. -/
theorem continued_append {range : UInt8 × UInt8} {first : UInt8} {more rest : Bytes}
    (inRange : range.1 ≤ first ∧ first ≤ range.2)
    (further : ∀ b ∈ more, (0x80 : UInt8) ≤ b ∧ b ≤ 0xBF) :
    continued range more.length (first :: (more ++ rest)) = more.length + 1 := by
  induction more generalizing range first with
  | nil =>
      cases rest <;> simp [continued, inRange]
  | cons second more ih =>
      obtain ⟨second_inRange, others⟩ := List.forall_mem_cons.mp further
      rw [List.length_cons, List.cons_append, continued, if_pos inRange, ih second_inRange others]
      omega

/-- A character is encoded as one byte, or as a byte that calls for what follows it. -/
inductive Encoded (c : Char) : Bytes → Prop where
  | alone {lead : UInt8} (ascii : lead < 0x80) (same : Char.ofNat lead.toNat = c) : Encoded c [lead]
  | continued (range : UInt8 × UInt8) {lead first : UInt8} {more : Bytes}
      (notAscii : ¬ lead < 0x80) (calls : continuation? lead = some (range, more.length))
      (inRange : range.1 ≤ first ∧ first ≤ range.2)
      (further : ∀ b ∈ more, (0x80 : UInt8) ≤ b ∧ b ≤ 0xBF) : Encoded c (lead :: first :: more)

/-- A byte in a range, told by the numbers. -/
theorem inRange_ofNat (low high : Nat) {n : Nat} (low_le : low ≤ n) (le_high : n ≤ high)
    (small : high < 256) :
    UInt8.ofNat low ≤ UInt8.ofNat n ∧ UInt8.ofNat n ≤ UInt8.ofNat high := by
  have n_small := Nat.lt_of_le_of_lt le_high small
  rw [UInt8.le_iff_toNat_le, UInt8.le_iff_toNat_le, UInt8.toNat_ofNat_of_lt' n_small,
    UInt8.toNat_ofNat_of_lt' small, UInt8.toNat_ofNat_of_lt' (Nat.lt_of_le_of_lt low_le n_small)]
  exact ⟨low_le, le_high⟩

/-- Six bits after the mark of a continuation byte make one. -/
theorem isContinuation (n : Nat) :
    (0x80 : UInt8) ≤ UInt8.ofNat (n % 64 + 128) ∧ UInt8.ofNat (n % 64 + 128) ≤ 0xBF :=
  inRange_ofNat 0x80 0xBF (Nat.le_add_left 128 _) (by omega) (by decide)

theorem notAscii_ofNat {n : Nat} (small : n < 256) (large : 128 ≤ n) : ¬ UInt8.ofNat n < 0x80 := by
  rw [UInt8.lt_iff_toNat_lt, UInt8.toNat_ofNat_of_lt' small]
  exact Nat.not_lt.mpr large

/-- Where the second of three bytes lies, after a first byte with this number: long forms and
surrogates are kept out. -/
def secondOfThree (n : Nat) : UInt8 × UInt8 :=
  if n = 0xE0 then (0xA0, 0xBF) else if n = 0xED then (0x80, 0x9F) else (0x80, 0xBF)

/-- Where the second of four bytes lies, after a first byte with this number: long forms and what is
beyond the last character are kept out. -/
def secondOfFour (n : Nat) : UInt8 × UInt8 :=
  if n = 0xF0 then (0x90, 0xBF) else if n = 0xF4 then (0x80, 0x8F) else (0x80, 0xBF)

section Calls

variable {n : Nat}

/-- Which continuation bytes a leading byte calls for, told by its number. -/
theorem continuation?_ofNat (small : n < 256) :
    continuation? (UInt8.ofNat n) =
      if 0xC2 ≤ n ∧ n ≤ 0xDF then some ((0x80, 0xBF), 0)
      else if n = 0xE0 then some ((0xA0, 0xBF), 1)
      else if n = 0xED then some ((0x80, 0x9F), 1)
      else if 0xE1 ≤ n ∧ n ≤ 0xEF then some ((0x80, 0xBF), 1)
      else if n = 0xF0 then some ((0x90, 0xBF), 2)
      else if 0xF1 ≤ n ∧ n ≤ 0xF3 then some ((0x80, 0xBF), 2)
      else if n = 0xF4 then some ((0x80, 0x8F), 2)
      else none := by
  have value : (UInt8.ofNat n).toNat = n := UInt8.toNat_ofNat_of_lt' small
  simp only [continuation?, UInt8.le_iff_toNat_le, ← UInt8.toNat_inj, value, UInt8.reduceToNat]

theorem continuation?_two (low : 0xC2 ≤ n) (high : n ≤ 0xDF) :
    continuation? (UInt8.ofNat n) = some ((0x80, 0xBF), 0) := by
  rw [continuation?_ofNat (by omega), if_pos ⟨low, high⟩]

theorem continuation?_three (low : 0xE0 ≤ n) (high : n ≤ 0xEF) :
    continuation? (UInt8.ofNat n) = some (secondOfThree n, 1) := by
  rw [continuation?_ofNat (by omega), secondOfThree]
  repeat' split
  all_goals first | rfl | omega

theorem continuation?_four (low : 0xF0 ≤ n) (high : n ≤ 0xF4) :
    continuation? (UInt8.ofNat n) = some (secondOfFour n, 2) := by
  rw [continuation?_ofNat (by omega), secondOfFour]
  repeat' split
  all_goals first | rfl | omega

end Calls

section Forms

variable {c : Char} {v : Nat}

theorem encoded_one (same : Char.ofNat v = c) (small : v ≤ 127) : Encoded c [UInt8.ofNat v] := by
  have value : (UInt8.ofNat v).toNat = v :=
    UInt8.toNat_ofNat_of_lt' (Nat.lt_of_le_of_lt small (by decide))
  apply Encoded.alone
  · rw [UInt8.lt_iff_toNat_lt, value]
    exact Nat.lt_succ_of_le small
  · rw [value]
    exact same

theorem encoded_two (large : 127 < v) (small : v ≤ 2047) :
    Encoded c [UInt8.ofNat (v / 64 % 32 + 192), UInt8.ofNat (v % 64 + 128)] := by
  have notAscii := notAscii_ofNat (n := v / 64 % 32 + 192) (by omega) (by omega)
  exact .continued _ notAscii (continuation?_two (by omega) (by omega)) (isContinuation v)
    (List.forall_mem_nil _)

theorem encoded_three (large : 2047 < v) (small : v ≤ 65535) (valid : v < 0xD800 ∨ 0xDFFF < v) :
    Encoded c [UInt8.ofNat (v / 4096 % 16 + 224), UInt8.ofNat (v / 64 % 64 + 128),
      UInt8.ofNat (v % 64 + 128)] := by
  have notAscii : ¬ UInt8.ofNat (v / 4096 % 16 + 224) < 0x80 :=
    notAscii_ofNat (by omega) (by omega)
  have calls := continuation?_three (n := v / 4096 % 16 + 224) (by omega) (by omega)
  refine .continued _ notAscii calls ?_ (List.forall_mem_singleton.mpr (isContinuation v))
  rw [secondOfThree]
  split
  · exact inRange_ofNat 0xA0 0xBF (by omega) (by omega) (by decide)
  split
  · exact inRange_ofNat 0x80 0x9F (by omega) (by omega) (by decide)
  · exact isContinuation (v / 64)

theorem encoded_four (large : 65535 < v) (small : v < 0x110000) :
    Encoded c [UInt8.ofNat (v / 262144 % 8 + 240), UInt8.ofNat (v / 4096 % 64 + 128),
      UInt8.ofNat (v / 64 % 64 + 128), UInt8.ofNat (v % 64 + 128)] := by
  have notAscii : ¬ UInt8.ofNat (v / 262144 % 8 + 240) < 0x80 :=
    notAscii_ofNat (by omega) (by omega)
  have calls := continuation?_four (n := v / 262144 % 8 + 240) (by omega) (by omega)
  have further : ∀ b ∈ [UInt8.ofNat (v / 64 % 64 + 128), UInt8.ofNat (v % 64 + 128)],
      (0x80 : UInt8) ≤ b ∧ b ≤ 0xBF := by
    rw [List.forall_mem_cons, List.forall_mem_singleton]
    exact ⟨isContinuation (v / 64), isContinuation v⟩
  refine .continued _ notAscii calls ?_ further
  rw [secondOfFour]
  split
  · exact inRange_ofNat 0x90 0xBF (by omega) (by omega) (by decide)
  split
  · exact inRange_ofNat 0x80 0x8F (by omega) (by omega) (by decide)
  · exact isContinuation (v / 4096)

end Forms

theorem encoded_utf8EncodeChar (c : Char) : Encoded c (String.utf8EncodeChar c) := by
  have valid : c.val.toNat < 0xD800 ∨ 0xDFFF < c.val.toNat ∧ c.val.toNat < 0x110000 := c.valid
  rw [String.utf8EncodeChar]
  by_cases one : c.val.toNat ≤ 127
  · rw [if_pos one]
    exact encoded_one c.ofNat_toNat one
  rw [if_neg one]
  by_cases two : c.val.toNat ≤ 2047
  · rw [if_pos two]
    exact encoded_two (Nat.not_le.mp one) two
  rw [if_neg two]
  by_cases three : c.val.toNat ≤ 65535
  · rw [if_pos three]
    exact encoded_three (Nat.not_le.mp two) three (valid.imp_right And.left)
  · rw [if_neg three]
    exact encoded_four (Nat.not_le.mp three) (by omega)

theorem ofText_eq_flatMap (text : String) :
    Bytes.ofText text = text.toList.flatMap String.utf8EncodeChar := by
  rw [Bytes.ofText, String.toUTF8, ← String.utf8Encode_toList, List.utf8Encode]
  exact List.toList_data_toByteArray

/-- The first character of an encoded text is taken with all its bytes. -/
theorem headCharacter_utf8EncodeChar {c : Char} {lead : UInt8} {more : Bytes}
    (encoded : String.utf8EncodeChar c = lead :: more) (rest : Bytes) :
    headCharacter lead (more ++ rest) = (c, more.length) := by
  have text : Bytes.text? (lead :: more) = some (String.singleton c) := by
    have bytes_eq : Bytes.ofText (String.singleton c) = lead :: more := by
      simp [ofText_eq_flatMap, encoded]
    rw [← bytes_eq, Bytes.text?_ofText]
  have follows := encoded_utf8EncodeChar c
  rw [encoded] at follows
  cases follows with
  | alone ascii same => rw [headCharacter, if_pos ascii, same, List.length_nil]
  | continued range notAscii calls inRange further =>
      rw [headCharacter, if_neg notAscii, calls]
      simp only [List.cons_append, continued_append inRange further]
      rw [← List.cons_append, ← List.length_cons, List.take_left, text]
      simp

/-- An encoded text is read as it was. -/
theorem decodeReplacing_ofText (text : String) :
    decodeReplacing (.ofText text) = text.toList := by
  rw [ofText_eq_flatMap]
  induction text.toList with
  | nil => rw [List.flatMap_nil, decodeReplacing]
  | cons c rest ih =>
      cases encoded : String.utf8EncodeChar c with
      | nil => exact absurd encoded String.utf8EncodeChar_ne_nil
      | cons lead more =>
          rw [List.flatMap_cons, encoded, List.cons_append, decodeReplacing,
            headCharacter_utf8EncodeChar encoded, List.drop_left, ih]

end Ferry.Text
