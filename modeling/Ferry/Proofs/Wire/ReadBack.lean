import Ferry.Peer.Message
import Ferry.Proofs.Wire.Number

/-!
# Values come back as they were written

A value reads back if its wire form, whatever follows it, is read as this value and nothing of what
follows is lost. All values that travel do, as long as the sequences in them have a length of 64
bits; a longer sequence could not even be counted on the wire.
-/

namespace Ferry

namespace Wire

variable {α β : Type}

/-- The wire form of a value is read as this value, whatever follows it. -/
def ReadsBack [Wire α] (value : α) : Prop :=
  ∀ rest, Wire.read (Wire.write value ++ rest) = .ok (value, rest)

theorem andThen_of_ok {read : Reader α} {next : α → Reader β} {input rest : Bytes} {value : α}
    (first : read input = .ok (value, rest)) : read.andThen next input = next value rest := by
  rw [Reader.andThen, first]

theorem map_of_ok {read : Reader α} {f : α → β} {input rest : Bytes} {value : α}
    (first : read input = .ok (value, rest)) : Reader.map f read input = .ok (f value, rest) := by
  rw [Reader.map, first]

/-- A value that reads back is what its wire form as a whole spells. -/
theorem decode_write [Wire α] {value : α} (back : ReadsBack value) :
    decode (Wire.write value) = .ok value := by
  have read_eq := back []
  rw [List.append_nil] at read_eq
  rw [decode, read_eq]

theorem readsBack_bool (value : Bool) : ReadsBack value := by
  intro rest
  cases value <;> rfl

theorem readsBack_byte (value : UInt8) : ReadsBack value :=
  fun _ => rfl

theorem readsBack_uint32 (value : UInt32) : ReadsBack value := by
  intro rest
  have read_eq := readNumber_short_writeNumber value.toNat_lt rest
  exact (map_of_ok read_eq).trans (by rw [UInt32.ofNat_toNat])

theorem readsBack_word (value : Word) : ReadsBack value := by
  intro rest
  have read_eq := readNumber_long_writeNumber (zigzag_lt value) rest
  exact (map_of_ok read_eq).trans (by rw [unzigzag_zigzag])

theorem timesOnto_flatMap [Wire α] {values : List α} (back : ∀ value ∈ values, ReadsBack value)
    (taken : List α) (rest : Bytes) :
    Reader.timesOnto Wire.read values.length taken (values.flatMap Wire.write ++ rest) =
      .ok (taken.reverse ++ values, rest) := by
  induction values generalizing taken with
  | nil => simp [Reader.timesOnto]
  | cons value values ih =>
      obtain ⟨first, others⟩ := List.forall_mem_cons.mp back
      rw [List.length_cons, List.flatMap_cons, List.append_assoc, Reader.timesOnto, first]
      simp only
      rw [ih others, List.reverse_cons, List.append_assoc, List.singleton_append]

/-- A sequence reads back if its values do and their number has 64 bits. -/
theorem readsBack_list [Wire α] {values : List α} (count : values.length < UInt64.size)
    (back : ∀ value ∈ values, ReadsBack value) : ReadsBack values := by
  intro rest
  have length_eq := readNumber_long_writeNumber count (values.flatMap Wire.write ++ rest)
  rw [← List.append_assoc] at length_eq
  have values_eq := timesOnto_flatMap back [] rest
  rw [List.reverse_nil, List.nil_append] at values_eq
  exact (andThen_of_ok length_eq).trans values_eq

theorem readsBack_option [Wire α] {value : Option α} (back : ∀ inner ∈ value, ReadsBack inner) :
    ReadsBack value := by
  intro rest
  cases value with
  | none => rfl
  | some inner => exact map_of_ok (back inner rfl rest)

theorem takeBytes_append (bytes rest : Bytes) :
    takeBytes bytes.length (bytes ++ rest) = .ok (bytes, rest) := by
  simp [takeBytes]

/-- Bytes without a length before them come back if one knows how many they are. -/
theorem readRaw_append {count : Nat} (value : FixedBytes count) (rest : Bytes) :
    FixedBytes.readRaw count (value.bytes ++ rest) = .ok (value, rest) := by
  rcases value with ⟨bytes, rfl⟩
  simp [FixedBytes.readRaw]

theorem readsBack_string {text : String} (count : (Bytes.ofText text).length < UInt64.size) :
    ReadsBack text := by
  intro rest
  have length_eq := readNumber_long_writeNumber count (Bytes.ofText text ++ rest)
  rw [← List.append_assoc] at length_eq
  have bytes_eq := (andThen_of_ok length_eq).trans (takeBytes_append (Bytes.ofText text) rest)
  exact (andThen_of_ok bytes_eq).trans (by rw [Bytes.text?_ofText])

theorem readsBack_sessionId (id : SessionId) : ReadsBack id := by
  intro rest
  have sixteen : 16 < UInt64.size := by decide
  have length_eq := readNumber_long_writeNumber sixteen (id.bytes ++ rest)
  rw [← List.append_assoc] at length_eq
  have bytes_eq := takeBytes_append id.bytes rest
  rw [id.length_eq] at bytes_eq
  apply (andThen_of_ok length_eq).trans
  apply (andThen_of_ok bytes_eq).trans
  simp [FixedBytes.ofBytes?, id.length_eq]

end Wire

/-- The sequences in a frame have a length of 64 bits. -/
structure Frame.Countable (frame : Frame) : Prop where
  locals : frame.locals.length < UInt64.size
  operands : frame.operands.length < UInt64.size

/-- The sequences in a snapshot have a length of 64 bits. -/
structure Snapshot.Countable (snapshot : Snapshot) : Prop where
  frames : snapshot.frames.length < UInt64.size
  each : ∀ frame ∈ snapshot.frames, frame.Countable

theorem Frame.Countable.readsBack {frame : Frame} (countable : frame.Countable) :
    Wire.ReadsBack frame := by
  intro rest
  have locals := Wire.readsBack_list countable.locals fun word _ => Wire.readsBack_word word
  have operands := Wire.readsBack_list countable.operands fun word _ => Wire.readsBack_word word
  have written : Wire.write frame ++ rest =
      Wire.write frame.programCounter ++ (Wire.write frame.functionIndex ++
        (Wire.write frame.locals ++ (Wire.write frame.operands ++ rest))) := by
    rw [← List.append_assoc, ← List.append_assoc, ← List.append_assoc]
    rfl
  rw [written]
  apply (Wire.andThen_of_ok (Wire.readsBack_uint32 _ _)).trans
  apply (Wire.andThen_of_ok (Wire.readsBack_uint32 _ _)).trans
  exact (Wire.andThen_of_ok (locals _)).trans (Wire.map_of_ok (operands rest))

theorem Snapshot.Countable.readsBack {snapshot : Snapshot} (countable : snapshot.Countable) :
    Wire.ReadsBack snapshot := by
  intro rest
  have frames := Wire.readsBack_list countable.frames fun frame member =>
    (countable.each frame member).readsBack
  have written : Wire.write snapshot ++ rest =
      Wire.write snapshot.valid ++ (Wire.write snapshot.frames ++
        (Wire.write snapshot.entry ++ rest)) := by
    rw [← List.append_assoc, ← List.append_assoc]
    rfl
  rw [written]
  apply (Wire.andThen_of_ok (Wire.readsBack_bool _ _)).trans
  exact (Wire.andThen_of_ok (frames _)).trans (Wire.map_of_ok (Wire.readsBack_uint32 _ rest))

/-- A well-formed snapshot is what its bytes spell. -/
theorem Snapshot.decode_encode {snapshot : Snapshot} (wellFormed : snapshot.WellFormed)
    (countable : snapshot.Countable) : decode snapshot.encode = .ok snapshot := by
  have sound := (defect?_eq_none_iff snapshot).mpr wellFormed
  rw [decode, encode, Wire.decode_write countable.readsBack]
  simp only [check, sound]

namespace Wire

variable {α : Type}

/-- A sequence of values that are written in at least one byte each is no longer than its wire
form. -/
theorem length_le_length_write [Wire α] {values : List α}
    (nonempty : ∀ value ∈ values, 0 < (Wire.write value).length) :
    values.length ≤ (Wire.write values).length := by
  have body : values.length ≤ (values.flatMap Wire.write).length := by
    induction values with
    | nil => exact Nat.le_refl 0
    | cons value values ih =>
        obtain ⟨first, others⟩ := List.forall_mem_cons.mp nonempty
        have rest := ih others
        rw [List.length_cons, List.flatMap_cons, List.length_append]
        omega
  exact Nat.le_trans body (by simp [Wire.write])

theorem length_write_le_of_mem [Wire α] {values : List α} {value : α} (member : value ∈ values) :
    (Wire.write value).length ≤ (Wire.write values).length := by
  obtain ⟨before, after, rfl⟩ := List.append_of_mem member
  simp only [Wire.write, List.flatMap_append, List.flatMap_cons, List.length_append]
  omega

end Wire

theorem Frame.length_write (frame : Frame) :
    (Wire.write frame).length =
      (Wire.write frame.programCounter).length + (Wire.write frame.functionIndex).length +
        (Wire.write frame.locals).length + (Wire.write frame.operands).length := by
  change (_ ++ _ ++ _ ++ _ : Bytes).length = _
  rw [List.length_append, List.length_append, List.length_append]

/-- A snapshot whose bytes have a length of 64 bits has only such sequences in it. -/
theorem Snapshot.countable_of_length {snapshot : Snapshot}
    (short : snapshot.encode.length < UInt64.size) : snapshot.Countable := by
  have words_le : ∀ words : List Word, words.length ≤ (Wire.write words).length := fun words =>
    Wire.length_le_length_write fun word _ => Wire.writeNumber_length_pos (Wire.zigzag word)
  have frames_lt : (Wire.write snapshot.frames).length < UInt64.size := by
    apply Nat.lt_of_le_of_lt ?_ short
    change _ ≤ (_ ++ _ ++ _ : Bytes).length
    rw [List.length_append, List.length_append]
    omega
  have each : ∀ frame ∈ snapshot.frames, (Wire.write frame).length < UInt64.size :=
    fun frame member => Nat.lt_of_le_of_lt (Wire.length_write_le_of_mem member) frames_lt
  constructor
  · refine Nat.lt_of_le_of_lt (Wire.length_le_length_write fun frame _ => ?_) frames_lt
    have first := Wire.writeNumber_length_pos frame.programCounter.toNat
    rw [frame.length_write]
    exact Nat.lt_of_lt_of_le first (by simp only [Wire.write]; omega)
  · intro frame member
    have frame_lt := each frame member
    have locals_le := words_le frame.locals
    have operands_le := words_le frame.operands
    rw [frame.length_write] at frame_lt
    exact ⟨by omega, by omega⟩

end Ferry
