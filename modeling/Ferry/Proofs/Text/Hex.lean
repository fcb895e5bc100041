import Ferry.Text.Hex

/-!
# Hexadecimal digits read back

A digit of either case has the value of its lower-case form. So pairs of digits spell bytes exactly
if they become the digits of these bytes when their letters are made lower-case, and whatever
consists of pairs of digits spells some bytes.
-/

namespace Ferry.Text

theorem toNat_toLower (c : Char) :
    c.toLower.toNat = if 65 ≤ c.toNat ∧ c.toNat ≤ 90 then c.toNat + 32 else c.toNat := by
  have upper_iff : c.val ≥ 'A'.val ∧ c.val ≤ 'Z'.val ↔ 65 ≤ c.toNat ∧ c.toNat ≤ 90 := by
    simp only [ge_iff_le, UInt32.le_iff_toNat_le]
    exact Iff.rfl
  delta Char.toLower
  split
  · rename_i upper
    have bounds := upper_iff.mp upper
    rw [if_pos bounds]
    change (c.val + 32).toNat = c.toNat + 32
    rw [UInt32.toNat_add, Char.toNat_val]
    apply Nat.mod_eq_of_lt
    change c.toNat + 32 < _
    omega
  · rename_i other
    rw [if_neg (mt upper_iff.mpr other)]

/-- What is no letter comes from nothing else when letters are made lower-case. -/
theorem toLower_eq_iff {c symbol : Char} (noLetter : symbol.isAlpha = false) :
    c.toLower = symbol ↔ c = symbol := by
  have outside : ¬ (65 ≤ symbol.toNat ∧ symbol.toNat ≤ 90) ∧
      ¬ (97 ≤ symbol.toNat ∧ symbol.toNat ≤ 122) := by
    obtain ⟨notUpper, notLower⟩ := Bool.or_eq_false_iff.mp noLetter
    refine ⟨of_decide_eq_false notUpper, fun ⟨above, below⟩ => ?_⟩
    rcases Bool.and_eq_false_iff.mp notLower with notAbove | notBelow
    · exact of_decide_eq_false notAbove above
    · exact of_decide_eq_false notBelow below
  rw [← Char.toNat_inj, ← Char.toNat_inj, toNat_toLower]
  split <;> omega

theorem toNat_hexDigit :
    ∀ value < 16, (hexDigit value).toNat = if value < 10 then 48 + value else 87 + value := by
  decide

theorem toLower_hexDigit : ∀ value < 16, (hexDigit value).toLower = hexDigit value := by decide

theorem hexValue?_eq (c : Char) :
    hexValue? c = if 48 ≤ c.toNat ∧ c.toNat ≤ 57 then some (c.toNat - 48)
      else if 97 ≤ c.toNat ∧ c.toNat ≤ 102 then some (c.toNat - 97 + 10)
      else if 65 ≤ c.toNat ∧ c.toNat ≤ 70 then some (c.toNat - 65 + 10)
      else none := by
  simp only [hexValue?, Char.le_def, UInt32.le_iff_toNat_le]
  rfl

/-- A digit has the value of its lower-case form. -/
theorem hexValue?_eq_some_iff {c : Char} {value : Nat} :
    hexValue? c = some value ↔ value < 16 ∧ c.toLower = hexDigit value := by
  have digit := toNat_hexDigit value
  rw [hexValue?_eq, ← Char.toNat_inj, toNat_toLower]
  grind

theorem hexByte_ofNat {h l : Nat} (h_lt : h < 16) (l_lt : l < 16) :
    hexByte (UInt8.ofNat (16 * h + l)) = [hexDigit h, hexDigit l] := by
  have value : (UInt8.ofNat (16 * h + l)).toNat = 16 * h + l :=
    UInt8.toNat_ofNat_of_lt' (show 16 * h + l < 256 by omega)
  have high : (16 * h + l) / 16 = h := by omega
  have low : (16 * h + l) % 16 = l := by omega
  rw [hexByte, value, high, low]

/-- A pair of digits spells a byte if it becomes the pair of the byte. -/
theorem exists_hexValue?_iff {high low : Char} {b : UInt8} :
    (∃ h l, hexValue? high = some h ∧ hexValue? low = some l ∧ UInt8.ofNat (16 * h + l) = b) ↔
      [high.toLower, low.toLower] = hexByte b := by
  simp only [hexValue?_eq_some_iff]
  constructor
  · rintro ⟨h, l, ⟨h_lt, isHigh⟩, ⟨l_lt, isLow⟩, rfl⟩
    rw [hexByte_ofNat h_lt l_lt, isHigh, isLow]
  · intro pair
    simp only [hexByte, List.cons.injEq, and_true] at pair
    have inside : b.toNat < 256 := b.toNat_lt
    refine ⟨b.toNat / 16, b.toNat % 16, ⟨by omega, pair.1⟩, ⟨by omega, pair.2⟩, ?_⟩
    rw [Nat.div_add_mod, UInt8.ofNat_toNat]

theorem bytesOfHex?_cons_cons {high low : Char} {rest : List Char} {bytes : Bytes} :
    bytesOfHex? (high :: low :: rest) = some bytes ↔
      ∃ b others, [high.toLower, low.toLower] = hexByte b ∧ bytesOfHex? rest = some others ∧
        bytes = b :: others := by
  simp only [bytesOfHex?, Option.bind_eq_bind, Option.bind_eq_some_iff, Option.pure_def,
    Option.some.injEq, ← exists_hexValue?_iff]
  constructor
  · rintro ⟨h, isHigh, l, isLow, others, read, rfl⟩
    exact ⟨_, others, ⟨h, l, isHigh, isLow, rfl⟩, read, rfl⟩
  · rintro ⟨_, others, ⟨h, l, isHigh, isLow, rfl⟩, read, rfl⟩
    exact ⟨h, isHigh, l, isLow, others, read, rfl⟩

/-- Digits of either case spell the bytes whose digits they become. -/
theorem bytesOfHex?_eq_some_iff {digits : List Char} {bytes : Bytes} :
    bytesOfHex? digits = some bytes ↔ digits.map Char.toLower = bytes.flatMap hexByte := by
  induction digits using bytesOfHex?.induct generalizing bytes with
  | case1 => cases bytes <;> simp [bytesOfHex?, hexByte]
  | case2 c => cases bytes <;> simp [bytesOfHex?, hexByte]
  | case3 high low rest ih =>
      rw [bytesOfHex?_cons_cons]
      cases bytes with
      | nil => simp
      | cons b others =>
          rw [List.flatMap_cons, List.map_cons, List.map_cons]
          constructor
          · rintro ⟨_, _, pair, read, same⟩
            cases same
            rw [← pair, ← ih.mp read]
            rfl
          · intro same
            have parts : [high.toLower, low.toLower] ++ rest.map Char.toLower =
                hexByte b ++ others.flatMap hexByte := same
            obtain ⟨pair, left⟩ := List.append_inj parts rfl
            exact ⟨b, others, pair, ih.mpr left, rfl⟩

theorem length_flatMap_hexByte (bytes : Bytes) :
    (bytes.flatMap hexByte).length = 2 * bytes.length := by
  induction bytes with
  | nil => rfl
  | cons b rest ih =>
      rw [List.flatMap_cons, List.length_append, ih, List.length_cons, hexByte]
      simp only [List.length_cons, List.length_nil]
      omega

/-- The sixteen digits, in lower case. -/
def hexAlphabet : List Char := "0123456789abcdef".toList

theorem exists_hexDigit_iff (c : Char) : (∃ value < 16, hexDigit value = c) ↔ c ∈ hexAlphabet := by
  have alphabet : hexAlphabet = (List.range 16).map hexDigit := by decide
  rw [alphabet, List.mem_map]
  simp only [List.mem_range]

/-- Lower-case digits are those of some bytes if each of them is a digit and they make pairs. -/
theorem exists_flatMap_hexByte_iff {digits : List Char} {count : Nat} :
    (∃ bytes : Bytes, bytes.length = count ∧ bytes.flatMap hexByte = digits) ↔
      digits.length = 2 * count ∧ ∀ c ∈ digits, c ∈ hexAlphabet := by
  constructor
  · rintro ⟨bytes, rfl, rfl⟩
    refine ⟨length_flatMap_hexByte bytes, ?_⟩
    intro c member
    obtain ⟨b, -, member⟩ := List.mem_flatMap.mp member
    have inside : b.toNat < 256 := b.toNat_lt
    rw [← exists_hexDigit_iff]
    simp only [hexByte, List.mem_cons, List.not_mem_nil, or_false] at member
    rcases member with rfl | rfl
    · exact ⟨b.toNat / 16, by omega, rfl⟩
    · exact ⟨b.toNat % 16, by omega, rfl⟩
  · rintro ⟨length_eq, all⟩
    induction count generalizing digits with
    | zero => exact ⟨[], rfl, (List.length_eq_zero_iff.mp length_eq).symm⟩
    | succ count ih =>
        match digits with
        | high :: low :: rest =>
            obtain ⟨isHigh, isLow, others⟩ : high ∈ hexAlphabet ∧ low ∈ hexAlphabet ∧
                ∀ c ∈ rest, c ∈ hexAlphabet := by simpa using all
            obtain ⟨h, h_lt, rfl⟩ := (exists_hexDigit_iff high).mpr isHigh
            obtain ⟨l, l_lt, rfl⟩ := (exists_hexDigit_iff low).mpr isLow
            obtain ⟨bytes, rfl, rfl⟩ := ih (by simpa [Nat.mul_succ] using length_eq) others
            refine ⟨UInt8.ofNat (16 * h + l) :: bytes, rfl, ?_⟩
            rw [List.flatMap_cons, hexByte_ofNat h_lt l_lt]
            rfl

end Ferry.Text
