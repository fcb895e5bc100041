import Ferry.Artifact.Envelope
import Ferry.Proofs.Wire.ReadBack

/-!
# What is sealed can be opened

The artifact of a well-formed snapshot is read and opened to what was sealed: the name of the
program and the snapshot. Its digest is found to be right because it is the digest of the very bytes
that are in it. The name that an artifact bears is the only one that is admitted.
-/

namespace Ferry

namespace Envelope

variable {envelope : Envelope}

/-- The sequences in an envelope have a length of 64 bits. -/
structure Countable (envelope : Envelope) : Prop where
  program : (Bytes.ofText envelope.program).length < UInt64.size
  payload : envelope.payload.length < UInt64.size

theorem Countable.readsBack (countable : envelope.Countable) : Wire.ReadsBack envelope := by
  intro rest
  have program := Wire.readsBack_string countable.program
  have payload := Wire.readsBack_list countable.payload fun byte _ => Wire.readsBack_byte byte
  have written : Wire.write envelope ++ rest =
      Wire.write envelope.formatVersion ++ (Wire.write envelope.program ++
        (envelope.checksum.bytes ++ (Wire.write envelope.payload ++ rest))) := by
    rw [← List.append_assoc, ← List.append_assoc, ← List.append_assoc]
    rfl
  rw [written]
  apply (Wire.andThen_of_ok (Wire.readsBack_uint32 _ _)).trans
  apply (Wire.andThen_of_ok (program _)).trans
  apply (Wire.andThen_of_ok (Wire.readRaw_append _ _)).trans
  exact Wire.map_of_ok (payload rest)

theorem length_toBytes (envelope : Envelope) :
    envelope.toBytes.length =
      magic.length + (Wire.write envelope.formatVersion).length +
        (Wire.write envelope.program).length + 32 + (Wire.write envelope.payload).length := by
  change (magic ++ (_ ++ _ ++ _ ++ _) : Bytes).length = _
  simp only [List.length_append, envelope.checksum.length_eq]
  omega

/-- An envelope whose artifact has a length of 64 bits has only such sequences in it. -/
theorem countable_of_length (short : envelope.toBytes.length < UInt64.size) :
    envelope.Countable := by
  rw [length_toBytes] at short
  have program_le : (Bytes.ofText envelope.program).length ≤
      (Wire.write envelope.program).length := by
    simp [Wire.write]
  have payload_le : envelope.payload.length ≤ (Wire.write envelope.payload).length :=
    Wire.length_le_length_write fun _ _ => Nat.one_pos
  exact ⟨by omega, by omega⟩

theorem magic_isPrefixOf (body : Bytes) : magic.isPrefixOf (magic ++ body) = true :=
  List.isPrefixOf_iff_prefix.mpr (List.prefix_append magic body)

/-- An envelope behind the mark is read, and its version is judged then. -/
theorem ofBytes?_of_decode {body : Bytes}
    (read : Wire.decode (α := Envelope) body = .ok envelope) :
    ofBytes? (magic ++ body) =
      if envelope.formatVersion = currentVersion then .ok envelope
      else .error (.unsupportedVersion envelope.formatVersion) := by
  rw [ofBytes?, magic_isPrefixOf, List.drop_left, read]
  simp only [not_true_eq_false, if_false, ite_not]

/-- What follows the mark is not read if it is no envelope. -/
theorem ofBytes?_of_malformed {body : Bytes} {error : Wire.DecodeError}
    (unread : Wire.decode (α := Envelope) body = .error error) :
    ∃ reason, ofBytes? (magic ++ body) = .error (.malformed reason) := by
  rw [ofBytes?, magic_isPrefixOf, List.drop_left, unread]
  cases error <;> exact ⟨_, rfl⟩

/-- An artifact of the current version is read as the envelope that is in it. -/
theorem ofBytes?_toBytes (countable : envelope.Countable)
    (current : envelope.formatVersion = currentVersion) :
    ofBytes? envelope.toBytes = .ok envelope := by
  rw [toBytes, ofBytes?_of_decode (Wire.decode_write countable.readsBack), if_pos current]

/-- The seal of a snapshot is intact, and the snapshot under it can be read. -/
theorem snapshot?_ofSnapshot {snapshot : Snapshot} (wellFormed : snapshot.WellFormed)
    (countable : snapshot.Countable) (program : String) :
    (ofSnapshot program snapshot).snapshot? = .ok snapshot := by
  simp [snapshot?, ofSnapshot, Snapshot.decode_encode wellFormed countable]

end Envelope

/-- A sequence takes no more bytes than its length and its values do. -/
theorem Wire.length_write_list_le {α : Type} [Wire α] {values : List α} {most : Nat}
    (each : ∀ value ∈ values, (Wire.write value).length ≤ most) :
    (Wire.write values).length ≤ (most + 1) * values.length + 1 := by
  have body : (values.flatMap Wire.write).length ≤ most * values.length := by
    induction values with
    | nil => exact Nat.zero_le _
    | cons value values ih =>
        obtain ⟨first, others⟩ := List.forall_mem_cons.mp each
        have rest := ih others
        rw [List.flatMap_cons, List.length_append, List.length_cons, Nat.mul_succ]
        omega
  have count := Wire.length_writeNumber_le_succ values.length
  change (_ ++ _ : Bytes).length ≤ _
  rw [List.length_append, Nat.add_one_mul]
  omega

theorem Wire.length_write_uint32_le (value : UInt32) : (Wire.write value).length ≤ 5 := by
  have fits : value.toNat < Wire.room 127 4 := Nat.lt_trans value.toNat_lt (by decide)
  exact Wire.length_writeNumber_le fits

theorem Frame.length_write_le (frame : Frame) :
    (Wire.write frame).length ≤ 11 * (frame.locals.length + frame.operands.length) + 12 := by
  have words_le : ∀ words : List Word, (Wire.write words).length ≤ 11 * words.length + 1 :=
    fun words => Wire.length_write_list_le fun word _ => Wire.length_write_word_le word
  have locals_le := words_le frame.locals
  have operands_le := words_le frame.operands
  have pc_le := Wire.length_write_uint32_le frame.programCounter
  have function_le := Wire.length_write_uint32_le frame.functionIndex
  rw [frame.length_write]
  omega

/-- How long a snapshot with so many words in a frame can be. -/
theorem Snapshot.length_encode_le {snapshot : Snapshot} {most : Nat}
    (each : ∀ frame ∈ snapshot.frames, frame.locals.length + frame.operands.length ≤ most) :
    snapshot.encode.length ≤ (11 * most + 13) * snapshot.frames.length + 7 := by
  have frames_le : (Wire.write snapshot.frames).length ≤
      (11 * most + 13) * snapshot.frames.length + 1 := by
    refine Wire.length_write_list_le fun frame member => ?_
    have words_le := each frame member
    have frame_le := frame.length_write_le
    omega
  have entry_le := Wire.length_write_uint32_le snapshot.entry
  have valid_eq : (Wire.write snapshot.valid).length = 1 := rfl
  change (_ ++ _ ++ _ : Bytes).length ≤ _
  rw [List.length_append, List.length_append]
  omega

/-- The first snapshot of a call with one argument can be sealed under every name that can be
counted. -/
theorem Envelope.countable_of_first {program : String}
    (short : (Bytes.ofText program).length < UInt64.size) (valid : Bool) (argument : Word) :
    (ofSnapshot program ⟨valid, [⟨0, 0, [argument], []⟩], 0⟩).Countable where
  program := short
  payload := by
    have encode_le := @Snapshot.length_encode_le ⟨valid, [⟨0, 0, [argument], []⟩], 0⟩ 1 (by simp)
    exact Nat.lt_of_le_of_lt encode_le (by simp [UInt64.size])

/-- How long the artifact of a snapshot can be. -/
theorem Envelope.length_toBytes_ofSnapshot_le (program : String) (snapshot : Snapshot) :
    (ofSnapshot program snapshot).toBytes.length ≤
      2 * (Bytes.ofText program).length + 2 * snapshot.encode.length + 43 := by
  have version_le := Wire.length_write_uint32_le currentVersion
  have count := Wire.length_writeNumber_le_succ (Bytes.ofText program).length
  have payload_le : (Wire.write snapshot.encode).length ≤ 2 * snapshot.encode.length + 1 :=
    Wire.length_write_list_le fun _ _ => Nat.le_refl 1
  have program_eq : (Wire.write program).length =
      (Wire.writeNumber (Bytes.ofText program).length).length + (Bytes.ofText program).length :=
    List.length_append
  have magic_eq : magic.length = 4 := rfl
  rw [length_toBytes]
  simp only [ofSnapshot]
  omega

namespace StoredSnapshot

/-- The artifact of a well-formed snapshot says what was sealed, if its length has 64 bits, as that
of every file has. -/
theorem ofBytes?_ofSnapshot {snapshot : Snapshot} (wellFormed : snapshot.WellFormed)
    {program : String}
    (short : (Envelope.ofSnapshot program snapshot).toBytes.length < UInt64.size) :
    ofBytes? (Envelope.ofSnapshot program snapshot).toBytes =
      .ok ⟨program, .of snapshot.encode, (Envelope.ofSnapshot program snapshot).toBytes.length,
        snapshot⟩ := by
  have countable := Envelope.countable_of_length short
  have inner : snapshot.Countable := Snapshot.countable_of_length countable.payload
  rw [ofBytes?, Envelope.ofBytes?_toBytes countable rfl]
  simp only [Envelope.snapshot?_ofSnapshot wellFormed inner program]
  rfl

/-- An artifact is admitted for the program whose name it bears and for no other. -/
theorem ensureProgram_eq_ok_iff {stored : StoredSnapshot} {program : String} :
    stored.ensureProgram program = .ok () ↔ program = stored.program := by
  rw [ensureProgram]
  split
  · rename_i differs
    exact ⟨nofun, fun same => absurd same.symm differs⟩
  · rename_i same
    exact ⟨fun _ => (Decidable.not_not.mp same).symm, fun _ => rfl⟩

end StoredSnapshot

end Ferry
