import Ferry.Wire.Basic

/-!
# Numbers come back as they were written

A width has room for a certain number of values: those whose groups it allows. Every number for
which there is room is read back, whatever follows it. A word is folded into a number of 64 bits
first, and this loses nothing.
-/

namespace Ferry.Wire

/-- How many numbers can be written with `more + 1` groups, given the bound on the last one. -/
def room (lastGroup : Nat) : (more : Nat) → Nat
  | 0 => lastGroup + 1
  | more + 1 => 128 * room lastGroup more

theorem toNat_ofNat_byte {n : Nat} (small : n < 256) : (UInt8.ofNat n).toNat = n :=
  UInt8.toNat_ofNat_of_lt' small

theorem writeNumber_of_lt {n : Nat} (small : n < 128) : writeNumber n = [UInt8.ofNat n] := by
  rw [writeNumber, if_pos small]

theorem writeNumber_of_le {n : Nat} (large : 128 ≤ n) :
    writeNumber n = UInt8.ofNat (n % 128 + 128) :: writeNumber (n / 128) := by
  rw [writeNumber, if_neg (Nat.not_lt.mpr large)]

theorem writeNumber_length_pos (n : Nat) : 0 < (writeNumber n).length := by
  by_cases small : n < 128
  · rw [writeNumber_of_lt small, List.length_singleton]
    exact Nat.one_pos
  · rw [writeNumber_of_le (Nat.not_lt.mp small), List.length_cons]
    exact Nat.succ_pos _

/-- A number for which there is room, whatever its last group is, takes no more groups. -/
theorem length_writeNumber_le {more n : Nat} (fits : n < room 127 more) :
    (writeNumber n).length ≤ more + 1 := by
  induction more generalizing n with
  | zero =>
      rw [writeNumber_of_lt fits]
      exact Nat.le_refl 1
  | succ more ih =>
      rw [room] at fits
      by_cases small : n < 128
      · rw [writeNumber_of_lt small]
        exact Nat.le_add_left 1 _
      · have quotient : n / 128 < room 127 more := by omega
        rw [writeNumber_of_le (Nat.not_lt.mp small), List.length_cons]
        exact Nat.succ_le_succ (ih quotient)

theorem length_writeNumber_le_succ (n : Nat) : (writeNumber n).length ≤ n + 1 := by
  fun_induction writeNumber n with
  | case1 n small => exact Nat.le_add_left 1 n
  | case2 n large ih =>
      rw [List.length_cons]
      omega

/-- A number that fits into the groups is read back. -/
theorem readGroups_writeNumber {lastGroup : Nat} (last_lt : lastGroup < 128) (more n : Nat)
    (fits : n < room lastGroup more) (rest : Bytes) :
    readGroups lastGroup (more + 1) (writeNumber n ++ rest) = .ok (n, rest) := by
  induction more generalizing n with
  | zero =>
      rw [room] at fits
      have small : n < 128 := by omega
      have allowed : ¬ lastGroup < n := by omega
      rw [writeNumber_of_lt small, List.singleton_append, readGroups,
        toNat_ofNat_byte (by omega), if_pos small, if_neg (fun excess => allowed excess.2)]
  | succ more ih =>
      rw [room] at fits
      by_cases small : n < 128
      · rw [writeNumber_of_lt small, List.singleton_append, readGroups,
          toNat_ofNat_byte (by omega), if_pos small, if_neg (fun excess => nomatch excess.1)]
      · have quotient : n / 128 < room lastGroup more := by omega
        rw [writeNumber_of_le (Nat.not_lt.mp small), List.cons_append, readGroups,
          toNat_ofNat_byte (by omega), if_neg (by omega), ih _ quotient]
        simp only [Except.ok.injEq, Prod.mk.injEq, and_true]
        omega

theorem readNumber_short_writeNumber {n : Nat} (fits : n < UInt32.size) (rest : Bytes) :
    readNumber .short (writeNumber n ++ rest) = .ok (n, rest) := by
  have room_eq : room 15 4 = UInt32.size := by simp [room, UInt32.size]
  exact readGroups_writeNumber (by decide) 4 n (room_eq ▸ fits) rest

theorem readNumber_long_writeNumber {n : Nat} (fits : n < UInt64.size) (rest : Bytes) :
    readNumber .long (writeNumber n ++ rest) = .ok (n, rest) := by
  have room_eq : room 1 9 = UInt64.size := by simp [room, UInt64.size]
  exact readGroups_writeNumber (by decide) 9 n (room_eq ▸ fits) rest

theorem zigzag_lt (word : Word) : zigzag word < UInt64.size := by
  have lower := word.le_toInt
  have upper := word.toInt_lt
  rw [zigzag]
  simp only [UInt64.size]
  split <;> omega

theorem length_write_word_le (word : Word) : (Wire.write word).length ≤ 10 := by
  have fits : zigzag word < room 127 9 := Nat.lt_trans (zigzag_lt word) (by decide)
  exact length_writeNumber_le fits

theorem unzigzag_zigzag (word : Word) : unzigzag (zigzag word) = word := by
  have lower := word.le_toInt
  have upper := word.toInt_lt
  by_cases sign : 0 ≤ word.toInt
  · have half : ((2 * word.toInt.natAbs : Nat) : Int) / 2 = word.toInt := by omega
    rw [zigzag, if_pos sign, unzigzag, if_pos (by omega), half, Int64.ofInt_toInt]
  · have half : -(((2 * word.toInt.natAbs - 1 : Nat) : Int) / 2) - 1 = word.toInt := by omega
    rw [zigzag, if_neg sign, unzigzag, if_neg (by omega), half, Int64.ofInt_toInt]

end Ferry.Wire
