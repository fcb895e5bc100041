import Ferry.Proofs.Wire.ReadBack

/-!
# What readers take, and nothing else

The bytes that spell a number are its groups, perhaps followed by zero groups as long as the width
allows; the bytes that spell a sequence are a number and that many values. Frames and snapshots are
made of these. A reader is exact if it takes what spells a value, whatever follows, and refuses
everything else. Of all the spellings of a value the written one is the only shortest.
-/

namespace Ferry.Wire

variable {α β : Type}

/-- The bytes are groups of seven bits that make up a number, lowest group first, and all but the
last are marked. Once the number is used up, further groups are zero. -/
inductive Groups : Bytes → Nat → Prop where
  | last {n : Nat} (small : n < 128) : Groups [UInt8.ofNat n] n
  | more {n : Nat} {rest : Bytes} (further : Groups rest (n / 128)) :
      Groups (UInt8.ofNat (n % 128 + 128) :: rest) n

/-- The bytes spell a number below a bound in no more groups than are allowed. -/
structure Numeral (most bound : Nat) (bytes : Bytes) (n : Nat) : Prop where
  groups : Groups bytes n
  length_le : bytes.length ≤ most
  lt : n < bound

/-- The bytes spell values, one after the other. -/
inductive Repeated (spelled : Bytes → α → Prop) : Bytes → List α → Prop where
  | nil : Repeated spelled [] []
  | cons {first rest : Bytes} {value : α} {values : List α} (head : spelled first value)
      (tail : Repeated spelled rest values) : Repeated spelled (first ++ rest) (value :: values)

/-- The bytes spell a number of 64 bits and that many values. -/
inductive Counted (spelled : Bytes → α → Prop) : Bytes → List α → Prop where
  | intro {count body : Bytes} {values : List α}
      (counts : Numeral 10 UInt64.size count values.length)
      (each : Repeated spelled body values) : Counted spelled (count ++ body) values

/-- The bytes spell a number of 32 bits. -/
def SpellsUInt32 (bytes : Bytes) (value : UInt32) : Prop :=
  Numeral 5 UInt32.size bytes value.toNat

/-- The bytes spell a word, whose sign is folded into the lowest bit. -/
def SpellsWord (bytes : Bytes) (word : Word) : Prop := Numeral 10 UInt64.size bytes (zigzag word)

/-- The bytes spell a frame: its program counter, its function, its locals and its operands. -/
inductive SpellsFrame : Bytes → Frame → Prop where
  | intro {counter index slots stack : Bytes} {programCounter functionIndex : UInt32}
      {locals operands : List Word} (spells_counter : SpellsUInt32 counter programCounter)
      (spells_index : SpellsUInt32 index functionIndex)
      (spells_slots : Counted SpellsWord slots locals)
      (spells_stack : Counted SpellsWord stack operands) :
      SpellsFrame (counter ++ (index ++ (slots ++ stack)))
        ⟨programCounter, functionIndex, locals, operands⟩

/-- The bytes spell a snapshot: a one or a zero for its validity, its frames and its entry
function. -/
inductive SpellsSnapshot : Bytes → Snapshot → Prop where
  | intro {stack index : Bytes} {valid : Bool} {frames : List Frame} {entry : UInt32}
      (spells_stack : Counted SpellsFrame stack frames)
      (spells_index : SpellsUInt32 index entry) :
      SpellsSnapshot ([if valid then 1 else 0] ++ (stack ++ index)) ⟨valid, frames, entry⟩

/-- A reader takes a value from the front of its input exactly if the bytes there spell it. -/
def Exact (read : Reader α) (spelled : Bytes → α → Prop) : Prop :=
  ∀ input value rest, read input = .ok (value, rest) ↔
    ∃ front, spelled front value ∧ input = front ++ rest

/-- What spells every value of a sequence is about every value of it. -/
theorem Repeated.forall_mem {spelled : Bytes → α → Prop} {holds : α → Prop} {bytes : Bytes}
    {values : List α} (each : Repeated spelled bytes values)
    (of_spelled : ∀ front value, spelled front value → holds value) :
    ∀ value ∈ values, holds value := by
  induction each with
  | nil => exact List.forall_mem_nil holds
  | cons head _ ih => exact List.forall_mem_cons.mpr ⟨of_spelled _ _ head, ih⟩

/-- A whole byte sequence is read exactly if it spells a value. -/
theorem Exact.decode_eq_ok_iff [Wire α] {spelled : Bytes → α → Prop}
    (exact : Exact (Wire.read (α := α)) spelled) {bytes : Bytes} {value : α} :
    decode bytes = .ok value ↔ spelled bytes value := by
  have read_iff : Wire.read bytes = .ok (value, []) ↔ spelled bytes value := by
    rw [exact bytes value []]
    simp
  rw [← read_iff, decode]
  split <;> simp_all

theorem Exact.congr {read : Reader α} {spelled other : Bytes → α → Prop}
    (exact : Exact read spelled) (same : ∀ bytes value, spelled bytes value ↔ other bytes value) :
    Exact read other := by
  intro input value rest
  rw [exact input value rest]
  exact exists_congr fun front => and_congr_left fun _ => same front value

theorem Exact.map {read : Reader α} {spelled : Bytes → α → Prop} (exact : Exact read spelled)
    (f : α → β) :
    Exact (Reader.map f read) fun bytes image => ∃ value, spelled bytes value ∧ f value = image := by
  intro input image rest
  constructor
  · intro taken
    rw [Reader.map] at taken
    split at taken
    · rename_i value left first
      cases taken
      obtain ⟨front, spells, whole⟩ := (exact _ _ _).mp first
      exact ⟨front, ⟨value, spells, rfl⟩, whole⟩
    · cases taken
  · rintro ⟨front, ⟨value, spells, rfl⟩, whole⟩
    exact map_of_ok ((exact _ _ _).mpr ⟨front, spells, whole⟩)

theorem Exact.andThen {read : Reader α} {next : α → Reader β} {spelled : Bytes → α → Prop}
    {further : α → Bytes → β → Prop} (exact : Exact read spelled)
    (exact_next : ∀ value, Exact (next value) (further value)) :
    Exact (read.andThen next) fun bytes result => ∃ first second value,
      bytes = first ++ second ∧ spelled first value ∧ further value second result := by
  intro input result rest
  constructor
  · intro taken
    rw [Reader.andThen] at taken
    split at taken
    · rename_i value left begun
      obtain ⟨first, spells, whole⟩ := (exact _ _ _).mp begun
      obtain ⟨second, spells_next, rfl⟩ := (exact_next value _ _ _).mp taken
      refine ⟨first ++ second, ⟨first, second, value, rfl, spells, spells_next⟩, ?_⟩
      rw [whole, List.append_assoc]
    · cases taken
  · rintro ⟨_, ⟨first, second, value, rfl, spells, spells_next⟩, rfl⟩
    rw [List.append_assoc, andThen_of_ok ((exact _ _ _).mpr ⟨first, spells, rfl⟩)]
    exact (exact_next value _ _ _).mpr ⟨second, spells_next, rfl⟩

theorem Exact.timesOnto {read : Reader α} {spelled : Bytes → α → Prop}
    (exact : Exact read spelled) (count : Nat) (taken : List α) :
    Exact (read.timesOnto count taken) fun bytes result => ∃ values,
      values.length = count ∧ result = taken.reverse ++ values ∧ Repeated spelled bytes values := by
  induction count generalizing taken with
  | zero =>
      intro input result rest
      simp only [Reader.timesOnto, List.length_eq_zero_iff, Except.ok.injEq, Prod.mk.injEq]
      constructor
      · rintro ⟨rfl, rfl⟩
        exact ⟨[], ⟨[], rfl, (List.append_nil _).symm, .nil⟩, rfl⟩
      · rintro ⟨front, ⟨_, rfl, rfl, ⟨⟩⟩, rfl⟩
        exact ⟨(List.append_nil _).symm, rfl⟩
  | succ count ih =>
      intro input result rest
      rw [Reader.timesOnto]
      constructor
      · intro done
        split at done
        · rename_i value left first
          obtain ⟨front, spells, rfl⟩ := (exact _ _ _).mp first
          obtain ⟨body, ⟨values, length_eq, rfl, each⟩, rfl⟩ := (ih _ _ _ _).mp done
          refine ⟨front ++ body, ⟨value :: values, congrArg Nat.succ length_eq, ?_, .cons spells each⟩,
            (List.append_assoc ..).symm⟩
          rw [List.reverse_cons, List.append_assoc, List.singleton_append]
        · cases done
      · rintro ⟨_, ⟨_, length_eq, rfl, each⟩, rfl⟩
        cases each with
        | nil => cases length_eq
        | @cons front body value values spells each =>
            rw [List.append_assoc, (exact _ _ _).mpr ⟨front, spells, rfl⟩]
            refine (ih _ _ _ _).mpr ⟨body, ⟨values, Nat.succ.inj length_eq, ?_, each⟩, rfl⟩
            rw [List.reverse_cons, List.append_assoc, List.singleton_append]

section Numbers

variable {bytes : Bytes} {n : Nat}

theorem Groups.length_pos (groups : Groups bytes n) : 0 < bytes.length := by
  cases groups <;> exact Nat.succ_pos _

theorem Groups.ofByte {byte : UInt8} (small : byte.toNat < 128) : Groups [byte] byte.toNat := by
  have last := Groups.last small
  rwa [UInt8.ofNat_toNat] at last

theorem Groups.cons {byte : UInt8} (marked : ¬ byte.toNat < 128) (further : Groups bytes n) :
    Groups (byte :: bytes) (byte.toNat - 128 + 128 * n) := by
  have byte_lt := byte.toNat_lt
  have lowest : (byte.toNat - 128 + 128 * n) % 128 + 128 = byte.toNat := by omega
  have others : (byte.toNat - 128 + 128 * n) / 128 = n := by omega
  have groups : Groups _ (byte.toNat - 128 + 128 * n) := .more (others.symm ▸ further)
  rwa [lowest, UInt8.ofNat_toNat] at groups

/-- A small number has room in a last group that its bound allows, and in every group before. -/
theorem lt_room_iff {lastGroup more : Nat} (small : n < 128) :
    n < room lastGroup more ↔ ¬ (more = 0 ∧ lastGroup < n) := by
  have room_pos : ∀ fewer, 0 < room lastGroup fewer := by
    intro fewer
    induction fewer with
    | zero => exact Nat.succ_pos lastGroup
    | succ fewer ih => exact Nat.mul_pos (by decide) ih
  cases more with
  | zero =>
      rw [room]
      omega
  | succ fewer =>
      have positive := room_pos fewer
      rw [room]
      omega

/-- No groups spell nothing, and with another group there is room for more. -/
theorem Numeral.cons {lastGroup most : Nat} {byte : UInt8} (marked : ¬ byte.toNat < 128)
    (further : Numeral most (room lastGroup (most - 1)) bytes n) :
    Numeral (most + 1) (room lastGroup most) (byte :: bytes) (byte.toNat - 128 + 128 * n) := by
  refine ⟨further.groups.cons marked, Nat.succ_le_succ further.length_le, ?_⟩
  cases most with
  | zero => exact absurd further.length_le (Nat.not_le.mpr further.groups.length_pos)
  | succ fewer =>
      have byte_lt := byte.toNat_lt
      have lt : n < room lastGroup fewer := further.lt
      rw [room]
      omega

/-- What is read as a number are its groups, if they and the last one of them are within the
width. -/
theorem exact_readGroups (lastGroup groups : Nat) :
    Exact (readGroups lastGroup groups) (Numeral groups (room lastGroup (groups - 1))) := by
  induction groups with
  | zero =>
      intro input n rest
      constructor
      · intro taken
        cases taken
      · rintro ⟨front, numeral, -⟩
        exact absurd numeral.length_le (Nat.not_le.mpr numeral.groups.length_pos)
  | succ more ih =>
      intro input n rest
      rw [Nat.add_sub_cancel]
      constructor
      · intro taken
        cases input with
        | nil => cases taken
        | cons byte input =>
            rw [readGroups] at taken
            split at taken
            · rename_i small
              split at taken
              · cases taken
              · rename_i allowed
                cases taken
                exact ⟨[byte], ⟨.ofByte small, Nat.succ_pos more, (lt_room_iff small).mpr allowed⟩,
                  rfl⟩
            · rename_i marked
              split at taken
              · rename_i others left first
                obtain ⟨front, further, rfl⟩ := (ih _ _ _).mp first
                cases taken
                exact ⟨byte :: front, further.cons marked, rfl⟩
              · cases taken
      · rintro ⟨_, ⟨groups, length_le, lt⟩, rfl⟩
        cases groups with
        | last small =>
            rw [List.singleton_append, readGroups, toNat_ofNat_byte (by omega), if_pos small,
              if_neg ((lt_room_iff small).mp lt)]
        | @more _ front further =>
            have length_pos := further.length_pos
            rw [List.length_cons] at length_le
            cases more with
            | zero => omega
            | succ fewer =>
                rw [room] at lt
                have others : Numeral (fewer + 1) (room lastGroup fewer) front (n / 128) :=
                  ⟨further, by omega, by omega⟩
                rw [List.cons_append, readGroups, toNat_ofNat_byte (by omega), if_neg (by omega),
                  (ih _ _ _).mpr ⟨front, others, rfl⟩]
                simp only [Except.ok.injEq, Prod.mk.injEq, and_true]
                omega

theorem exact_readNumber_short : Exact (readNumber .short) (Numeral 5 UInt32.size) := by
  have room_eq : room 15 4 = UInt32.size := by simp [room, UInt32.size]
  exact room_eq ▸ exact_readGroups 15 5

theorem exact_readNumber_long : Exact (readNumber .long) (Numeral 10 UInt64.size) := by
  have room_eq : room 1 9 = UInt64.size := by simp [room, UInt64.size]
  exact room_eq ▸ exact_readGroups 1 10

/-- Every number of 64 bits is a folded word. -/
theorem zigzag_unzigzag (lt : n < UInt64.size) : zigzag (unzigzag n) = n := by
  simp only [UInt64.size] at lt
  rw [unzigzag]
  split
  · rename_i even
    have value : (Int64.ofInt (n / 2)).toInt = n / 2 :=
      Int64.toInt_ofInt_of_le (by omega) (by omega)
    rw [zigzag, value, if_pos (by omega)]
    omega
  · rename_i odd
    have value : (Int64.ofInt (-(n / 2) - 1)).toInt = -(n / 2) - 1 :=
      Int64.toInt_ofInt_of_le (by omega) (by omega)
    rw [zigzag, value, if_neg (by omega)]
    omega

end Numbers

section Values

theorem exact_bool : Exact (Wire.read (α := Bool)) fun bytes value =>
    bytes = [if value then 1 else 0] := by
  intro input value rest
  constructor
  · intro taken
    cases input with
    | nil => cases taken
    | cons byte input =>
        simp only [Wire.read] at taken
        split at taken
        · rename_i zero
          cases taken
          exact ⟨[0], rfl, by rw [zero, List.singleton_append]⟩
        · split at taken
          · rename_i one
            cases taken
            exact ⟨[1], rfl, by rw [one, List.singleton_append]⟩
          · cases taken
  · rintro ⟨_, rfl, rfl⟩
    exact readsBack_bool value rest

theorem exact_byte : Exact (Wire.read (α := UInt8)) fun bytes value => bytes = [value] := by
  intro input value rest
  constructor
  · intro taken
    cases input with
    | nil => cases taken
    | cons byte input =>
        cases taken
        exact ⟨_, rfl, rfl⟩
  · rintro ⟨_, rfl, rfl⟩
    rfl

theorem exact_uint32 : Exact (Wire.read (α := UInt32)) SpellsUInt32 := by
  refine (exact_readNumber_short.map UInt32.ofNat).congr fun bytes value => ?_
  constructor
  · rintro ⟨n, numeral, rfl⟩
    rwa [SpellsUInt32, UInt32.toNat_ofNat_of_lt' numeral.lt]
  · intro numeral
    exact ⟨value.toNat, numeral, UInt32.ofNat_toNat⟩

theorem exact_word : Exact (Wire.read (α := Word)) SpellsWord := by
  refine (exact_readNumber_long.map unzigzag).congr fun bytes value => ?_
  constructor
  · rintro ⟨n, numeral, rfl⟩
    rwa [SpellsWord, zigzag_unzigzag numeral.lt]
  · intro numeral
    exact ⟨zigzag value, numeral, unzigzag_zigzag value⟩

theorem exact_list [Wire α] {spelled : Bytes → α → Prop}
    (exact : Exact (Wire.read (α := α)) spelled) :
    Exact (Wire.read (α := List α)) (Counted spelled) := by
  refine (exact_readNumber_long.andThen fun count => exact.timesOnto count []).congr ?_
  intro bytes values
  constructor
  · rintro ⟨count, body, _, rfl, counts, _, rfl, rfl, each⟩
    exact .intro counts each
  · rintro ⟨counts, each⟩
    exact ⟨_, _, _, rfl, counts, _, rfl, rfl, each⟩

theorem exact_frame : Exact (Wire.read (α := Frame)) SpellsFrame := by
  have exact_words := exact_list exact_word
  refine (exact_uint32.andThen fun programCounter => exact_uint32.andThen fun functionIndex =>
    exact_words.andThen fun locals => exact_words.map
      (Frame.mk programCounter functionIndex locals)).congr fun bytes frame => ?_
  constructor
  · rintro ⟨_, _, _, rfl, counter, _, _, _, rfl, index, _, _, _, rfl, slots, _, stack, rfl⟩
    exact .intro counter index slots stack
  · rintro ⟨counter, index, slots, stack⟩
    exact ⟨_, _, _, rfl, counter, _, _, _, rfl, index, _, _, _, rfl, slots, _, stack, rfl⟩

theorem exact_snapshot : Exact (Wire.read (α := Snapshot)) SpellsSnapshot := by
  refine (exact_bool.andThen fun valid => (exact_list exact_frame).andThen fun frames =>
    exact_uint32.map (Snapshot.mk valid frames)).congr fun bytes snapshot => ?_
  constructor
  · rintro ⟨_, _, _, rfl, rfl, _, _, _, rfl, stack, _, index, rfl⟩
    exact .intro stack index
  · rintro ⟨stack, index⟩
    exact ⟨_, _, _, rfl, rfl, _, _, _, rfl, stack, _, index, rfl⟩

end Values

section Shortest

/-- Bytes are shorter than others, if they are not the same. -/
def Trims (bytes other : Bytes) : Prop := bytes = other ∨ bytes.length < other.length

variable {bytes : Bytes}

theorem Trims.length_le {other : Bytes} (trims : Trims bytes other) :
    bytes.length ≤ other.length := by
  rcases trims with rfl | lt
  · exact Nat.le_refl _
  · exact Nat.le_of_lt lt

theorem Trims.append {first second : Bytes} {other further : Bytes} (trims : Trims first other)
    (trims_further : Trims second further) : Trims (first ++ second) (other ++ further) := by
  have le := trims.length_le
  have le_further := trims_further.length_le
  simp only [Trims, List.length_append]
  rcases trims with rfl | lt
  · rcases trims_further with rfl | lt_further
    · exact .inl rfl
    · exact .inr (by omega)
  · exact .inr (by omega)

/-- The groups that are written are as few as possible. -/
theorem Groups.trims {n : Nat} (groups : Groups bytes n) : Trims (writeNumber n) bytes := by
  induction groups with
  | last small => exact .inl (writeNumber_of_lt small)
  | @more n rest further ih =>
      by_cases small : n < 128
      · have length_pos := further.length_pos
        rw [writeNumber_of_lt small]
        exact .inr (Nat.succ_lt_succ length_pos)
      · rw [writeNumber_of_le (Nat.not_lt.mp small)]
        have same : Trims [UInt8.ofNat (n % 128 + 128)] [UInt8.ofNat (n % 128 + 128)] := .inl rfl
        exact same.append ih

theorem Counted.trims [Wire α] {spelled : Bytes → α → Prop} {values : List α}
    (trims : ∀ front value, spelled front value → Trims (Wire.write value) front)
    (counted : Counted spelled bytes values) : Trims (Wire.write values) bytes := by
  have body : ∀ bytes values, Repeated spelled bytes values →
      Trims (values.flatMap Wire.write) bytes := by
    intro bytes values each
    induction each with
    | nil => exact .inl rfl
    | cons head _ ih =>
        rw [List.flatMap_cons]
        exact (trims _ _ head).append ih
  cases counted with
  | intro counts each => exact counts.groups.trims.append (body _ _ each)

end Shortest

end Ferry.Wire
